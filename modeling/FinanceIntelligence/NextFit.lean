import Mathlib.Data.List.Basic
import Mathlib.Data.List.Flatten
import Mathlib.Algebra.BigOperators.Group.List.Basic
import Mathlib.Algebra.GroupWithZero.Nat

/-!
# Next-fit

Items with a size are put into bins one after the other: an item that does not fit
into the bin in hand closes it and opens the next one.

* `nextFit_flatten` — **nothing is lost** and the order stays;
* `nextFit_bounded` — **no bin is empty** and none is over the capacity;
* `nextFit_crowded` — two bins next to each other would not fit into one;
* `lt_load_flatten_of_crowded` — which makes many bins **hold much**.

The capacity is part of the argument, so that an item that is too large for any bin
still gets one of its own; only `nextFit_bounded` asks that there is none.
-/

namespace FinanceIntelligence

variable {β : Type} (size : β → ℕ) (capacity : ℕ)

/-- The size of what is in a bin. -/
def load (bin : List β) : ℕ := (bin.map size).sum

@[simp] theorem load_nil : load size [] = 0 := rfl

@[simp] theorem load_cons (x : β) (bin : List β) :
    load size (x :: bin) = size x + load size bin := by
  simp [load]

@[simp] theorem load_append (bin bin' : List β) :
    load size (bin ++ bin') = load size bin + load size bin' := by
  simp [load]

/-- The bins for the items that are left, with `bin` in hand. -/
def nextFit (bin : List β) : List β → List (List β)
  | [] => if bin = [] then [] else [bin]
  | x :: items =>
    if bin ≠ [] ∧ capacity < load size bin + size x then bin :: nextFit [x] items
    else nextFit (bin ++ [x]) items

variable {size capacity}

/-- **Nothing is lost**: the bins hold what was in hand and then the items, in order. -/
theorem nextFit_flatten (bin items : List β) :
    (nextFit size capacity bin items).flatten = bin ++ items := by
  induction items generalizing bin with
  | nil =>
    rw [nextFit]
    split <;> simp_all
  | cons x items ih =>
    rw [nextFit]
    split
    · rw [List.flatten_cons, ih, List.singleton_append]
    · rw [ih, List.append_assoc, List.singleton_append]

/-- Every bin holds something. -/
theorem ne_nil_of_mem_nextFit {bin items b : List β} (hb : b ∈ nextFit size capacity bin items) :
    b ≠ [] := by
  induction items generalizing bin with
  | nil =>
    rw [nextFit] at hb
    split at hb
    · cases hb
    · rename_i hbin
      obtain rfl := List.mem_singleton.mp hb
      exact hbin
  | cons x items ih =>
    rw [nextFit] at hb
    split at hb
    · rename_i hclose
      rcases List.mem_cons.mp hb with rfl | hb
      · exact hclose.1
      · exact ih hb
    · exact ih hb

/-- **No bin is over the capacity**, if the bin in hand is not and no item is. -/
theorem nextFit_bounded {bin items b : List β} (hbin : load size bin ≤ capacity)
    (hitems : ∀ x ∈ items, size x ≤ capacity) (hb : b ∈ nextFit size capacity bin items) :
    load size b ≤ capacity := by
  induction items generalizing bin with
  | nil =>
    rw [nextFit] at hb
    split at hb
    · cases hb
    · obtain rfl := List.mem_singleton.mp hb
      exact hbin
  | cons x items ih =>
    obtain ⟨hx, hrest⟩ := List.forall_mem_cons.mp hitems
    rw [nextFit] at hb
    split at hb
    · rcases List.mem_cons.mp hb with rfl | hb
      · exact hbin
      · exact ih (by simpa using hx) hrest hb
    · rename_i hstays
      refine ih ?_ hrest hb
      -- an empty bin takes any item
      rcases eq_or_ne bin [] with rfl | hne
      · simpa using hx
      · simpa using Nat.le_of_not_lt fun h => hstays ⟨hne, h⟩

/-- A bin that was opened for an item starts with it. -/
theorem exists_nextFit_eq_cons (bin items : List β) (hbin : bin ≠ []) :
    ∃ more bins, nextFit size capacity bin items = (bin ++ more) :: bins := by
  induction items generalizing bin with
  | nil => exact ⟨[], [], by simp [nextFit, hbin]⟩
  | cons x items ih =>
    rw [nextFit]
    split
    · exact ⟨[], _, by rw [List.append_nil]⟩
    · obtain ⟨more, bins, h⟩ := ih (bin ++ [x]) (by simp)
      exact ⟨x :: more, bins, by rw [h, List.append_assoc, List.singleton_append]⟩

/-- Two bins next to each other hold more than fits into one. -/
def Crowded (size : β → ℕ) (capacity : ℕ) : List (List β) → Prop :=
  List.IsChain fun b b' => capacity < load size b + load size b'

/-- **Bins next to each other are crowded**: what opened the second one did not fit into
the first one. -/
theorem nextFit_crowded (bin items : List β) :
    Crowded size capacity (nextFit size capacity bin items) := by
  induction items generalizing bin with
  | nil =>
    rw [nextFit]
    split
    · exact .nil
    · exact .singleton _
  | cons x items ih =>
    rw [nextFit]
    split
    · rename_i hclose
      obtain ⟨more, bins, h⟩ :
          ∃ more bins, nextFit size capacity [x] items = ([x] ++ more) :: bins :=
        exists_nextFit_eq_cons [x] items (List.cons_ne_nil x [])
      have hrest := ih [x]
      rw [h] at hrest ⊢
      refine List.IsChain.cons_cons ?_ hrest
      simp only [List.singleton_append, load_cons]
      omega
    · exact ih _

/-- The first two of crowded bins, and the bins behind them. -/
theorem Crowded.pair {bins : List (List β)} (h : Crowded size capacity bins)
    (hlength : 2 ≤ bins.length) :
    ∃ b b' rest, bins = b :: b' :: rest ∧ capacity < load size b + load size b' ∧
      Crowded size capacity rest := by
  match bins, hlength with
  | b :: b' :: rest, _ =>
    obtain ⟨hpair, hrest⟩ := List.isChain_cons_cons.mp h
    exact ⟨b, b', rest, rfl, hpair, hrest.of_cons⟩

/-- **Many crowded bins hold much**: `2 n` of them more than `n` times the capacity. -/
theorem lt_load_flatten_of_crowded {n : ℕ} {bins : List (List β)} (h : Crowded size capacity bins)
    (hlength : 2 * (n + 1) ≤ bins.length) : (n + 1) * capacity < load size bins.flatten := by
  induction n generalizing bins with
  | zero =>
    obtain ⟨b, b', rest, rfl, hpair, -⟩ := h.pair (by omega)
    simp only [List.flatten_cons, load_append]
    omega
  | succ n ih =>
    obtain ⟨b, b', rest, rfl, hpair, hrest⟩ := h.pair (by omega)
    have hload := ih hrest (by simp only [List.length_cons] at hlength; omega)
    simp only [List.flatten_cons, load_append]
    rw [Nat.succ_mul]
    omega

end FinanceIntelligence
