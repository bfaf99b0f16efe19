import Mathlib.Data.List.Infix

/-!
# Finding and replacing

A general layer: the places where a text stands in another one, and `str.replace`.

* `occurrences` — every place, by what stands **before** it (`mem_occurrences`);
* `occurrences_append_cons` — a character that the text does not have **parts** its occurrences:
  none reaches across;
* `occurrences_replaceAll` — a replacement that is bounded by such characters leaves **no**
  occurrence, not even one that it makes itself.
-/

namespace FinanceIntelligence

variable {α : Type}

/-- A beginning without a character ends before it. -/
theorem prefix_append_cons_iff {p x y : List α} {c : α} (hc : c ∉ p) :
    p <+: x ++ c :: y ↔ p <+: x := by
  constructor
  · intro h
    rcases List.prefix_or_prefix_of_prefix h (List.prefix_append x (c :: y)) with hle | hle
    · exact hle
    · -- the text would reach the character
      obtain ⟨rest, rfl⟩ := hle
      cases rest with
      | nil => rw [List.append_nil]
      | cons d rest =>
        have hd : d :: rest <+: c :: y := (List.prefix_append_right_inj x).mp h
        obtain ⟨rfl, -⟩ := List.cons_prefix_cons.mp hd
        exact absurd (List.mem_append_right x List.mem_cons_self) hc
  · exact fun h => h.trans (List.prefix_append x (c :: y))

variable [DecidableEq α]

/-- What stands before the occurrences of `p` in a text, from left to right. -/
def occurrences (p : List α) : List α → List (List α)
  | [] => if p = [] then [[]] else []
  | c :: s => (if p.isPrefixOf (c :: s) then [[]] else []) ++ (occurrences p s).map (c :: ·)

/-- The loop of `str.replace`; the number bounds the length of the text. -/
def replaceFrom (old new : List α) : ℕ → List α → List α
  | 0, s => s
  | _ + 1, [] => []
  | n + 1, c :: s =>
    if old.isPrefixOf (c :: s) then new ++ replaceFrom old new n ((c :: s).drop old.length)
    else c :: replaceFrom old new n s

/-- `s.replace(old, new)` for a text `old` that is not empty. -/
def replaceAll (old new s : List α) : List α := replaceFrom old new s.length s

variable {p old new s x y : List α} {c : α} {n : ℕ}

theorem mem_occurrences {before : List α} :
    before ∈ occurrences p s ↔ ∃ after, s = before ++ (p ++ after) := by
  induction s generalizing before with
  | nil =>
    rw [occurrences]
    constructor
    · intro h
      split at h
      · rename_i hp
        obtain rfl := List.mem_singleton.mp h
        exact ⟨[], by rw [hp]; rfl⟩
      · cases h
    · rintro ⟨after, hafter⟩
      obtain ⟨rfl, hrest⟩ := List.append_eq_nil_iff.mp hafter.symm
      rw [if_pos (List.append_eq_nil_iff.mp hrest).1]
      exact List.mem_singleton_self _
  | cons c s ih =>
    rw [occurrences, List.mem_append, List.mem_map]
    constructor
    · rintro (h | ⟨before, h, rfl⟩)
      · split at h
        · rename_i hp
          obtain rfl := List.mem_singleton.mp h
          obtain ⟨after, hafter⟩ := List.isPrefixOf_iff_prefix.mp hp
          exact ⟨after, hafter.symm⟩
        · cases h
      · obtain ⟨after, rfl⟩ := ih.mp h
        exact ⟨after, rfl⟩
    · rintro ⟨after, hafter⟩
      cases before with
      | nil =>
        refine .inl ?_
        rw [if_pos (List.isPrefixOf_iff_prefix.mpr ⟨after, hafter.symm⟩)]
        exact List.mem_singleton_self _
      | cons d before =>
        obtain ⟨rfl, rfl⟩ := List.cons.inj hafter
        exact .inr ⟨before, ih.mpr ⟨after, rfl⟩, rfl⟩

/-- A text that does not stand in another one has no occurrence there. -/
theorem occurrences_eq_nil_iff : occurrences p s = [] ↔ ¬ p <:+: s := by
  rw [List.eq_nil_iff_forall_not_mem]
  constructor
  · rintro h ⟨before, after, hs⟩
    exact h before (mem_occurrences.mpr ⟨after, by rw [← hs, List.append_assoc]⟩)
  · intro h before hbefore
    obtain ⟨after, hs⟩ := mem_occurrences.mp hbefore
    exact h ⟨before, after, by rw [hs, List.append_assoc]⟩

/-- **A character parts the occurrences** of a text without it. -/
theorem occurrences_append_cons (hp : p ≠ []) (hc : c ∉ p) :
    occurrences p (x ++ c :: y) = occurrences p x ++ (occurrences p y).map (x ++ c :: ·) := by
  induction x with
  | nil =>
    have hhere : ¬ p.isPrefixOf (c :: y) = true := by
      rw [List.isPrefixOf_iff_prefix]
      exact fun h => hp (List.prefix_nil.mp ((prefix_append_cons_iff (x := []) hc).mp h))
    have hnil : occurrences p [] = [] := by rw [occurrences, if_neg hp]
    rw [hnil, List.nil_append, occurrences, if_neg hhere]
    rfl
  | cons d x ih =>
    have hhere : p.isPrefixOf (d :: (x ++ c :: y)) = p.isPrefixOf (d :: x) := by
      rw [Bool.eq_iff_iff, List.isPrefixOf_iff_prefix, List.isPrefixOf_iff_prefix]
      exact prefix_append_cons_iff (x := d :: x) hc
    rw [List.cons_append, occurrences, hhere, ih, List.map_append, List.map_map,
      ← List.append_assoc]
    rfl

/-! ## Replacing -/

/-- Up to the first character of a replacement, the text is as it was. -/
theorem prefix_of_prefix_replaceFrom (hc : c ∉ p) :
    p <+: replaceFrom old (c :: new) n s → p <+: s := by
  induction n generalizing p s with
  | zero => exact id
  | succ n ih =>
    intro h
    cases s with
    | nil => exact h
    | cons d s =>
      rw [replaceFrom] at h
      split at h
      · -- the replacement starts here
        obtain rfl := List.prefix_nil.mp ((prefix_append_cons_iff (x := []) hc).mp h)
        exact List.nil_prefix
      · cases p with
        | nil => exact List.nil_prefix
        | cons e p =>
          obtain ⟨rfl, hp⟩ := List.cons_prefix_cons.mp h
          exact List.cons_prefix_cons.mpr ⟨rfl, ih (List.not_mem_of_not_mem_cons hc) hp⟩

/-- **A replacement leaves no occurrence** when the characters that bound it are not in the text
it replaces, and neither is that text inside it. -/
theorem occurrences_replaceAll {d : α} (hold : old ≠ []) (hc : c ∉ old) (hd : d ∉ old)
    (hnew : occurrences old new = []) (s : List α) :
    occurrences old (replaceAll old (c :: (new ++ [d])) s) = [] := by
  have hloop : ∀ n (s : List α), s.length ≤ n →
      occurrences old (replaceFrom old (c :: (new ++ [d])) n s) = [] := by
    intro n
    induction n with
    | zero =>
      intro s hs
      obtain rfl := List.length_eq_zero_iff.mp (Nat.le_zero.mp hs)
      rw [replaceFrom, occurrences, if_neg hold]
    | succ n ih =>
      intro s hs
      cases s with
      | nil => rw [replaceFrom, occurrences, if_neg hold]
      | cons e s =>
        have hlength : (e :: s).length = s.length + 1 := rfl
        rw [replaceFrom]
        split
        · have hpos : 0 < old.length := List.length_pos_iff.mpr hold
          have hrest := ih ((e :: s).drop old.length) (by rw [List.length_drop]; omega)
          have hnil : occurrences old ([] : List α) = [] := by rw [occurrences, if_neg hold]
          have hshape : c :: (new ++ [d]) ++ replaceFrom old (c :: (new ++ [d])) n
              ((e :: s).drop old.length) = [] ++ c :: (new ++ d ::
                replaceFrom old (c :: (new ++ [d])) n ((e :: s).drop old.length)) := by
            simp
          rw [hshape, occurrences_append_cons hold hc, occurrences_append_cons hold hd, hnil, hnew,
            hrest]
          rfl
        · rename_i hhere
          have hkept : ¬ old.isPrefixOf (e :: replaceFrom old (c :: (new ++ [d])) n s) = true := by
            rw [List.isPrefixOf_iff_prefix] at hhere ⊢
            intro h
            have hreplaced : old <+: replaceFrom old (c :: (new ++ [d])) (n + 1) (e :: s) := by
              rw [replaceFrom, if_neg (by rwa [List.isPrefixOf_iff_prefix])]
              exact h
            exact hhere (prefix_of_prefix_replaceFrom hc hreplaced)
          rw [occurrences, if_neg hkept, ih s (by omega)]
          rfl
  exact hloop s.length s (Nat.le_refl _)

end FinanceIntelligence
