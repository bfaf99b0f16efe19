import Mathlib.Algebra.GroupWithZero.Nat
import Mathlib.Data.List.Basic

/-!
# Reading until a limit

Contents are read one after the other and their lengths are added up. Some of them, the cells,
are tested: with the first one that makes the total pass the limit, the reading ends. The others,
the headers, are not tested.

When the contents stand in rows and the test only ends the row (`readAll`), the reading goes on
in the next one.

* `stops_readAll_iff` — it stops at the first cell that passes the limit **exactly if** nothing
  stands behind the row of that cell; then the rows are read as if they were one
  (`EndsThere.readAll_eq`);
* `totalLength_untilLimit_le` — cells pass the limit by no more than **one of them** is long;
* `headersFit_of_cells` — so it is with one header, as long as no cell is longer than the limit.
-/

namespace FinanceIntelligence

/-- Something that is read: a cell, or else a header, by its length. -/
structure Content where
  /-- a cell is tested against the limit -/
  isCell : Bool
  /-- the number of its characters -/
  length : ℕ
deriving DecidableEq

namespace LimitedReading

/-- The characters of all. -/
def totalLength (contents : List Content) : ℕ := (contents.map Content.length).sum

/-- The length of the longest. -/
def longest (contents : List Content) : ℕ := (contents.map Content.length).foldr max 0

variable (limit : ℕ)

/-- A cell with which the total passes the limit. -/
def overruns (total : ℕ) (content : Content) : Bool :=
  content.isCell && limit < total + content.length

/-- The contents up to the first cell with which the total passes the limit. -/
def untilLimit : ℕ → List Content → List Content
  | _, [] => []
  | total, content :: contents =>
    content :: if overruns limit total content then []
      else untilLimit (total + content.length) contents

/-- Row by row, each until the limit. -/
def readAll : ℕ → List (List Content) → List Content
  | _, [] => []
  | total, row :: rows =>
    let read := untilLimit limit total row
    read ++ readAll (total + totalLength read) rows

/-- How many cells of a text pass the limit. -/
def overrunCount : ℕ → List Content → ℕ
  | _, [] => 0
  | total, content :: contents =>
    (if overruns limit total content then 1 else 0) + overrunCount (total + content.length) contents

/-- Some cell of a row passes the limit. -/
def crosses : ℕ → List Content → Bool
  | _, [] => false
  | total, content :: contents =>
    overruns limit total content || crosses (total + content.length) contents

/-- Nothing stands behind the first row that passes the limit. -/
def EndsThere : ℕ → List (List Content) → Prop
  | _, [] => True
  | total, row :: rows =>
    if crosses limit total row then rows.flatten = [] else EndsThere (total + totalLength row) rows

/-- Nothing stands behind a cell that passes the limit. -/
def Stops (total : ℕ) (contents : List Content) : Prop :=
  ∀ before content after, contents = before ++ content :: after →
    overruns limit (total + totalLength before) content = true → after = []

variable {limit} {total : ℕ} {content : Content} {contents rest row : List Content}
  {rows : List (List Content)}

@[simp] theorem totalLength_nil : totalLength [] = 0 := rfl

@[simp] theorem totalLength_cons :
    totalLength (content :: contents) = content.length + totalLength contents := rfl

@[simp] theorem totalLength_append :
    totalLength (contents ++ rest) = totalLength contents + totalLength rest := by
  simp [totalLength]

theorem length_le_longest (h : content ∈ contents) : content.length ≤ longest contents := by
  induction contents with
  | nil => cases h
  | cons other contents ih =>
    rcases List.mem_cons.mp h with rfl | h
    · exact Nat.le_max_left ..
    · exact Nat.le_trans (ih h) (Nat.le_max_right ..)

theorem overrunCount_append :
    overrunCount limit total (contents ++ rest) =
      overrunCount limit total contents +
        overrunCount limit (total + totalLength contents) rest := by
  induction contents generalizing total with
  | nil => simp [overrunCount]
  | cons content contents ih => simp [overrunCount, ih, Nat.add_assoc]

/-- A row that does not cross the limit is read as it is, and the reading goes on behind it. -/
theorem untilLimit_append_of_not_crosses (h : crosses limit total row = false) :
    untilLimit limit total (row ++ rest) =
      row ++ untilLimit limit (total + totalLength row) rest := by
  induction row generalizing total with
  | nil => simp
  | cons content row ih =>
    obtain ⟨hhere, hrow⟩ := Bool.or_eq_false_iff.mp h
    simp [untilLimit, hhere, ih hrow, Nat.add_assoc]

theorem untilLimit_of_not_crosses (h : crosses limit total row = false) :
    untilLimit limit total row = row := by
  rw [← List.append_nil row, untilLimit_append_of_not_crosses h, untilLimit]

/-- Behind a row that crosses the limit nothing is read. -/
theorem untilLimit_append_of_crosses (h : crosses limit total row = true) :
    untilLimit limit total (row ++ rest) = untilLimit limit total row := by
  induction row generalizing total with
  | nil => cases h
  | cons content row ih =>
    cases hhere : overruns limit total content with
    | true => simp [untilLimit, hhere]
    | false =>
      have hrow : crosses limit (total + content.length) row = true := by
        simpa [crosses, hhere] using h
      simp [untilLimit, hhere, ih hrow]

theorem readAll_append {rows' : List (List Content)} :
    readAll limit total (rows ++ rows') = readAll limit total rows ++
      readAll limit (total + totalLength (readAll limit total rows)) rows' := by
  induction rows generalizing total with
  | nil => simp [readAll]
  | cons row rows ih => simp [readAll, ih, Nat.add_assoc]

/-- Something is read of a row that is not empty. -/
theorem untilLimit_eq_nil_iff : untilLimit limit total row = [] ↔ row = [] := by
  cases row with
  | nil => simp [untilLimit]
  | cons content row => simp [untilLimit]

theorem readAll_eq_nil_iff : readAll limit total rows = [] ↔ rows.flatten = [] := by
  induction rows generalizing total with
  | nil => simp [readAll]
  | cons row rows ih =>
    simp only [readAll, List.append_eq_nil_iff, untilLimit_eq_nil_iff, ih, List.flatten_cons]

/-! ## Stopping -/

theorem stops_cons : Stops limit total (content :: contents) ↔
    (overruns limit total content = true → contents = []) ∧
      Stops limit (total + content.length) contents := by
  constructor
  · intro h
    refine ⟨h [] content contents rfl, fun before other after hsplit hover => ?_⟩
    refine h (content :: before) other after (by rw [hsplit]; rfl) ?_
    rwa [totalLength_cons, ← Nat.add_assoc]
  · rintro ⟨hhere, hrest⟩ before other after hsplit hover
    cases before with
    | nil =>
      obtain ⟨rfl, rfl⟩ := List.cons.inj hsplit
      exact hhere hover
    | cons first before =>
      obtain ⟨rfl, rfl⟩ := List.cons.inj hsplit
      rw [totalLength_cons, ← Nat.add_assoc] at hover
      exact hrest before other after rfl hover

/-- Where nothing stands behind a cell that passes the limit, there is at most one. -/
theorem Stops.overrunCount_le_one (h : Stops limit total contents) :
    overrunCount limit total contents ≤ 1 := by
  induction contents generalizing total with
  | nil => exact Nat.zero_le 1
  | cons content contents ih =>
    obtain ⟨hhere, hrest⟩ := stops_cons.mp h
    cases hover : overruns limit total content with
    | true => simp [overrunCount, hover, hhere hover]
    | false => simpa [overrunCount, hover] using ih hrest

/-- A row that does not cross the limit puts nothing in the way. -/
theorem stops_append_of_not_crosses (h : crosses limit total row = false) :
    Stops limit total (row ++ rest) ↔ Stops limit (total + totalLength row) rest := by
  induction row generalizing total with
  | nil => simp
  | cons content row ih =>
    obtain ⟨hhere, hrow⟩ := Bool.or_eq_false_iff.mp h
    rw [List.cons_append, stops_cons, ih hrow, totalLength_cons, Nat.add_assoc]
    simp [hhere]

/-- What is read of a row that crosses the limit ends with the cell that does. -/
theorem stops_append_of_crosses (h : crosses limit total row = true) :
    Stops limit total (untilLimit limit total row ++ rest) ↔ rest = [] := by
  induction row generalizing total with
  | nil => cases h
  | cons content row ih =>
    rw [untilLimit, List.cons_append, stops_cons]
    cases hhere : overruns limit total content with
    | true =>
      simp only [if_true, List.nil_append, true_implies]
      refine ⟨And.left, fun hrest => ⟨hrest, ?_⟩⟩
      subst hrest
      exact fun before other after hsplit => absurd hsplit (by simp)
    | false =>
      have hrow : crosses limit (total + content.length) row = true := by
        simpa [crosses, hhere] using h
      simp [ih hrow]

/-- **The reading stops** at the first cell that passes the limit exactly if nothing stands behind
its row. -/
theorem stops_readAll_iff :
    Stops limit total (readAll limit total rows) ↔ EndsThere limit total rows := by
  induction rows generalizing total with
  | nil =>
    exact iff_of_true (fun before content after hsplit => absurd hsplit (by simp [readAll])) trivial
  | cons row rows ih =>
    rw [readAll, EndsThere]
    cases hrow : crosses limit total row with
    | true =>
      rw [if_pos rfl]
      exact (stops_append_of_crosses hrow).trans readAll_eq_nil_iff
    | false =>
      rw [if_neg Bool.false_ne_true]
      simp only [untilLimit_of_not_crosses hrow]
      exact (stops_append_of_not_crosses hrow).trans ih

/-- Then the rows are read as if they were one. -/
theorem EndsThere.readAll_eq (h : EndsThere limit total rows) :
    readAll limit total rows = untilLimit limit total rows.flatten := by
  induction rows generalizing total with
  | nil => rfl
  | cons row rows ih =>
    rw [EndsThere] at h
    rw [readAll, List.flatten_cons]
    cases hrow : crosses limit total row with
    | true =>
      rw [hrow, if_pos rfl] at h
      rw [untilLimit_append_of_crosses hrow, readAll_eq_nil_iff.mpr h, List.append_nil]
    | false =>
      rw [hrow, if_neg Bool.false_ne_true] at h
      rw [untilLimit_append_of_not_crosses hrow]
      simp only [untilLimit_of_not_crosses hrow, ih h]

/-! ## The total -/

/-- The contents up to the limit pass it by no more than one of them is long. -/
def HeadersFit (limit : ℕ) (contents : List Content) : Prop :=
  totalLength (untilLimit limit 0 contents) ≤ limit + longest (untilLimit limit 0 contents)

instance : Decidable (HeadersFit limit contents) := inferInstanceAs (Decidable (_ ≤ _))

/-- Cells pass the limit by no more than the last of them is long. -/
theorem totalLength_untilLimit_le (hcells : ∀ content ∈ contents, content.isCell = true)
    (htotal : total ≤ limit) :
    total + totalLength (untilLimit limit total contents) ≤
      limit + longest (untilLimit limit total contents) := by
  induction contents generalizing total with
  | nil => simpa [untilLimit] using Nat.le_trans htotal (Nat.le_add_right ..)
  | cons content contents ih =>
    obtain ⟨hcell, hcells⟩ := List.forall_mem_cons.mp hcells
    rw [untilLimit]
    split
    · have hlength := length_le_longest (List.mem_singleton_self content)
      simp only [totalLength_cons, totalLength_nil]
      omega
    · rename_i hover
      simp only [overruns, hcell, Bool.true_and, decide_eq_true_eq, Nat.not_lt] at hover
      have hrest := ih hcells hover
      have hmax : longest (untilLimit limit (total + content.length) contents) ≤
          longest (content :: untilLimit limit (total + content.length) contents) :=
        Nat.le_max_right ..
      rw [totalLength_cons]
      omega

/-- With one header and with cells that are no longer than the limit, the headers fit. -/
theorem headersFit_of_cells {header : Content}
    (hcells : ∀ content ∈ contents, content.isCell = true ∧ content.length ≤ limit) :
    HeadersFit limit (header :: contents) := by
  rw [HeadersFit, untilLimit]
  split
  · have hlength := length_le_longest (List.mem_singleton_self header)
    simp only [totalLength_cons, totalLength_nil]
    omega
  · rw [Nat.zero_add]
    rcases Nat.lt_or_ge limit header.length with hlong | hshort
    · -- the header is longer than the limit: the next cell is the last one
      have hheader : header.length ≤
          longest (header :: untilLimit limit header.length contents) := Nat.le_max_left ..
      have hnext : totalLength (untilLimit limit header.length contents) ≤ limit := by
        cases contents with
        | nil => exact Nat.zero_le limit
        | cons content contents =>
          obtain ⟨hcell, hle⟩ := hcells content List.mem_cons_self
          have hover : overruns limit header.length content = true := by
            simp only [overruns, hcell, Bool.true_and, decide_eq_true_eq]
            omega
          simpa [untilLimit, hover] using hle
      rw [totalLength_cons]
      omega
    · have hrest := totalLength_untilLimit_le (fun content h => (hcells content h).1) hshort
      have hmax : longest (untilLimit limit header.length contents) ≤
          longest (header :: untilLimit limit header.length contents) := Nat.le_max_right ..
      rw [totalLength_cons]
      omega

end LimitedReading

end FinanceIntelligence
