import Mathlib.Data.List.Sort
import Mathlib.Data.List.TakeWhile
import Mathlib.Logic.Function.Basic

/-!
# Sorting by a key, first rows and pages

A general layer: lists that are sorted by a key, cut after a number of rows, all together or in
each group, and shown page by page.

* `mem_take_iff`, `mem_takePerGroup_iff` — **the first rows**, of all or of each group, are those
  with few rows below them.
* `filter_takePerGroup` — **in each group**, the first rows are kept.
* `flatten_pages` — **the pages** are the list.
-/

namespace FinanceIntelligence

universe u v w

section Sorting

variable {α : Type u} {κ : Type v} [LinearOrder κ] (key : α → κ) (l : List α)

/-- A list sorted by a key; rows with one key keep their order. -/
def sortedBy : List α := l.insertionSort fun a b => key a ≤ key b

theorem perm_sortedBy : (sortedBy key l).Perm l := List.perm_insertionSort _ l

@[simp] theorem mem_sortedBy {a : α} : a ∈ sortedBy key l ↔ a ∈ l := (perm_sortedBy key l).mem_iff

theorem pairwise_sortedBy : (sortedBy key l).Pairwise fun a b => key a ≤ key b := by
  have : Std.Total fun a b : α => key a ≤ key b := ⟨fun a b => le_total (key a) (key b)⟩
  have : IsTrans α fun a b => key a ≤ key b := ⟨fun _ _ _ => le_trans⟩
  exact List.pairwise_insertionSort _ l

/-- Rows with different keys stand in a strict order. -/
theorem pairwise_lt_sortedBy {key : α → κ} {l : List α} (hnodup : (l.map key).Nodup) :
    (sortedBy key l).Pairwise fun a b => key a < key b := by
  have hne : (sortedBy key l).Pairwise fun a b => key a ≠ key b :=
    List.pairwise_map.mp (((perm_sortedBy key l).map key).nodup_iff.mpr hnodup)
  exact ((pairwise_sortedBy key l).and hne).imp fun h => lt_of_le_of_ne h.1 h.2

/-- **The first rows** of a list in strict order are those with few rows below them. -/
theorem mem_take_iff {key : α → κ} {l : List α} (hl : l.Pairwise fun a b => key a < key b)
    {n : ℕ} {a : α} : a ∈ l.take n ↔ a ∈ l ∧ l.countP (key · < key a) < n := by
  induction l generalizing n with
  | nil => simp
  | cons b l ih =>
    obtain ⟨hb, hl⟩ := List.pairwise_cons.mp hl
    cases n with
    | zero => simp
    | succ n =>
      rw [List.take_succ_cons, List.mem_cons, List.mem_cons, ih hl, List.countP_cons]
      constructor
      · rintro (rfl | ⟨ha, hcount⟩)
        · -- nothing is below the first row
          have hzero : l.countP (key · < key a) = 0 :=
            List.countP_eq_zero.mpr fun c hc => by simpa using (hb c hc).le
          refine ⟨.inl rfl, ?_⟩
          simp [hzero]
        · refine ⟨.inr ha, ?_⟩
          rw [if_pos (by simpa using hb a ha)]
          omega
      · rintro ⟨rfl | ha, hcount⟩
        · exact .inl rfl
        · rw [if_pos (by simpa using hb a ha)] at hcount
          exact .inr ⟨ha, by omega⟩

end Sorting

section Groups

variable {α : Type u} {γ : Type w} [DecidableEq γ] (group : α → γ) (n : ℕ)

/-- The first rows of each group, where some rows were kept already. -/
def takePerGroup : (γ → ℕ) → List α → List α
  | _, [] => []
  | counts, a :: l =>
    if counts (group a) < n then
      a :: takePerGroup (Function.update counts (group a) (counts (group a) + 1)) l
    else takePerGroup counts l

variable {group n}

/-- **In each group** the first rows are kept. -/
theorem filter_takePerGroup (g : γ) (counts : γ → ℕ) (l : List α) :
    (takePerGroup group n counts l).filter (group · = g) =
      (l.filter (group · = g)).take (n - counts g) := by
  induction l generalizing counts with
  | nil => simp [takePerGroup]
  | cons a l ih =>
    rw [takePerGroup]
    by_cases hg : group a = g
    · subst hg
      split
      · rename_i hlt
        obtain ⟨k, hk⟩ : ∃ k, n - counts (group a) = k + 1 :=
          ⟨n - counts (group a) - 1, by omega⟩
        simp only [decide_true, List.filter_cons_of_pos, ih, Function.update_self, hk,
          List.take_succ_cons]
        congr 2
        omega
      · rename_i hle
        have hzero : n - counts (group a) = 0 := by omega
        rw [ih, hzero, List.take_zero, List.take_zero]
    · split
      · rw [List.filter_cons_of_neg (by simpa using hg),
          List.filter_cons_of_neg (by simpa using hg), ih, Function.update_of_ne (Ne.symm hg)]
      · rw [List.filter_cons_of_neg (by simpa using hg), ih]

/-- **The first rows of each group** of a list in strict order are those with few rows of the group
below them. -/
theorem mem_takePerGroup_iff {κ : Type v} [LinearOrder κ] {key : α → κ} {l : List α}
    (hl : l.Pairwise fun a b => key a < key b) {a : α} :
    a ∈ takePerGroup group n (fun _ => 0) l ↔
      a ∈ l ∧ l.countP (fun b => group b = group a ∧ key b < key a) < n := by
  have hmem : a ∈ takePerGroup group n (fun _ => 0) l ↔
      a ∈ (l.filter (group · = group a)).take n := by
    have hfilter : (takePerGroup group n (fun _ => 0) l).filter (group · = group a) =
        (l.filter (group · = group a)).take n := filter_takePerGroup (group a) (fun _ => 0) l
    rw [← hfilter, List.mem_filter, decide_eq_true_iff]
    exact (and_iff_left rfl).symm
  have hcount : (l.filter (group · = group a)).countP (key · < key a) =
      l.countP (fun b => group b = group a ∧ key b < key a) := by
    rw [List.countP_filter]
    exact List.countP_congr fun b _ => by simp [and_comm]
  rw [hmem, mem_take_iff (hl.filter _), List.mem_filter, hcount]
  simp

/-- What is kept keeps its order. -/
theorem takePerGroup_sublist (counts : γ → ℕ) (l : List α) :
    (takePerGroup group n counts l).Sublist l := by
  induction l generalizing counts with
  | nil => exact .slnil
  | cons a l ih =>
    rw [takePerGroup]
    split
    · exact (ih _).cons_cons a
    · exact (ih _).cons a

/-- Nothing is dropped while no group is full. -/
theorem takePerGroup_eq_self {counts : γ → ℕ} {l : List α}
    (h : ∀ g, counts g + l.countP (group · = g) ≤ n) : takePerGroup group n counts l = l := by
  induction l generalizing counts with
  | nil => rfl
  | cons a l ih =>
    have ha := h (group a)
    rw [List.countP_cons_of_pos (by simp)] at ha
    rw [takePerGroup, if_pos (by omega), ih]
    intro g
    have hg := h g
    by_cases hag : g = group a
    · subst hag
      rw [Function.update_self]
      omega
    · rw [List.countP_cons_of_neg (by simpa using Ne.symm hag)] at hg
      rwa [Function.update_of_ne hag]

/-- **Nothing is dropped** if each group has few rows. -/
theorem takePerGroup_eq_self_iff {l : List α} :
    takePerGroup group n (fun _ => 0) l = l ↔ ∀ g, l.countP (group · = g) ≤ n := by
  constructor
  · intro h g
    rw [← h, List.countP_eq_length_filter, filter_takePerGroup, List.length_take]
    exact min_le_left _ _
  · intro h
    exact takePerGroup_eq_self fun g => by simpa using h g

end Groups

section Pages

variable {α : Type u}

/-- A page of a list; the first one has the number 1. -/
def pageOf (page pageSize : ℕ) (l : List α) : List α :=
  (l.drop ((page - 1) * pageSize)).take pageSize

theorem length_pageOf (page pageSize : ℕ) (l : List α) :
    (pageOf page pageSize l).length = min pageSize (l.length - (page - 1) * pageSize) := by
  rw [pageOf, List.length_take, List.length_drop]

/-- A page is not empty when rows come after the pages before it. -/
theorem pageOf_ne_nil_iff {page pageSize : ℕ} {l : List α} (hsize : 0 < pageSize) :
    pageOf page pageSize l ≠ [] ↔ (page - 1) * pageSize < l.length := by
  rw [← List.length_pos_iff, length_pageOf]
  omega

/-- **The pages** in order are the rows that they reach. -/
theorem flatten_pages (pages pageSize : ℕ) (l : List α) :
    ((List.range pages).map fun i => pageOf (i + 1) pageSize l).flatten =
      l.take (pages * pageSize) := by
  induction pages with
  | zero => simp
  | succ pages ih =>
    rw [List.range_succ, List.map_append, List.flatten_append, ih, Nat.succ_mul, List.take_add]
    simp [pageOf]

end Pages

end FinanceIntelligence
