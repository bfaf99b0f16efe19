import Mathlib.Data.Nat.Notation
import Mathlib.Data.List.Fold

/-!
# Rows that are counted

A general layer: rows that are only ever added carry the numbers `1, 2, …`, in the order in which
they came. The number of the next one is found by looking for the largest that is taken, from
either end of the list, and adding one. `Counts` is the invariant that makes this right: nothing
is skipped and nothing is given out twice.

* `Counts.concat` — the next row **goes on counting**;
* `Counts.foldl_max`, `Counts.foldr_max` — the largest number is **how many rows there are**.
-/

namespace FinanceIntelligence

namespace Numbering

variable {α : Type} {number : α → ℕ} {l : List α}

/-- The rows carry the numbers from one on. -/
def Counts (number : α → ℕ) (l : List α) : Prop := l.map number = List.range' 1 l.length

theorem foldl_max_range' (n : ℕ) : (List.range' 1 n).foldl max 0 = n := by
  induction n with
  | zero => rfl
  | succ n ih =>
    rw [List.range'_1_concat, List.foldl_append, ih]
    simp only [List.foldl_cons, List.foldl_nil]
    omega

namespace Counts

/-- The next row goes on counting. -/
theorem concat (h : Counts number l) {a : α} (ha : number a = l.length + 1) :
    Counts number (l ++ [a]) := by
  rw [Counts, List.map_append, h, List.length_append, List.length_singleton, List.range'_1_concat,
    List.map_singleton, ha, Nat.add_comm 1]

/-- The largest number, looked for from the front. -/
theorem foldl_max (h : Counts number l) : (l.map number).foldl max 0 = l.length := by
  rw [h, foldl_max_range']

/-- The largest number, looked for from the end. -/
theorem foldr_max (h : Counts number l) : (l.map number).foldr max 0 = l.length := by
  rw [← List.foldl_eq_foldr, h.foldl_max]

end Counts

end Numbering

end FinanceIntelligence
