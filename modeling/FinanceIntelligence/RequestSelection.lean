import FinanceIntelligence.RequestNormalizer

/-!
# Rows that texts name

The loops of `normalize_request` over extracted texts and rows collect the rows that the texts
name, in the order of the texts and each once (`foldl_addMatches`). A text that names every row
that can be named at all leaves no choice: what stands behind it adds nothing
(`named_of_all`).
-/

namespace FinanceIntelligence

namespace AnalysisRequestNormalizer

variable {α : Type} [DecidableEq α]

/-- The rows that texts name, in the order of the texts, each once. -/
def named (test : String → α → Bool) (rows : List α) (texts : List String) : List α :=
  (texts.flatMap fun text => rows.filter (test text)).eraseDups

variable {test : String → α → Bool} {able : α → Bool} {rows matched : List α}
  {texts before after : List String} {text : String} {row : α}

theorem eraseDups_append_of_subset {l l' : List α} (h : ∀ a ∈ l', a ∈ l) :
    (l ++ l').eraseDups = l.eraseDups := by
  have hnone : l'.removeAll l = [] := by
    rw [List.removeAll, List.filter_eq_nil_iff]
    intro a ha
    simp [h a ha]
  rw [List.eraseDups_append, hnone, List.eraseDups_nil, List.append_nil]

/-- A row that is not there is added behind the others. -/
theorem eraseDups_concat (hmatched : matched.eraseDups = matched) (h : row ∉ matched) :
    (matched ++ [row]).eraseDups = matched ++ [row] := by
  have hone : [row].removeAll matched = [row] := by
    rw [List.removeAll, List.filter_eq_self]
    intro a ha
    rw [List.mem_singleton.mp ha]
    simpa using h
  rw [List.eraseDups_append, hone, hmatched]
  rfl

/-- What one text adds. -/
theorem addMatches_eq (hmatched : matched.eraseDups = matched) :
    addMatches test rows matched text = (matched ++ rows.filter (test text)).eraseDups := by
  rw [addMatches]
  induction rows generalizing matched with
  | nil => simp [hmatched]
  | cons row rows ih =>
    rw [List.foldl_cons]
    by_cases htest : test text row = true
    · rw [List.filter_cons_of_pos htest]
      by_cases hmem : row ∈ matched
      · rw [if_neg (by simp [hmem]), ih hmatched, List.eraseDups_append, List.eraseDups_append]
        congr 2
        rw [List.removeAll, List.removeAll, List.filter_cons_of_neg (by simpa using hmem)]
      · rw [if_pos (by simp [htest, hmem]), ih (eraseDups_concat hmatched hmem), List.append_assoc]
        rfl
    · rw [if_neg (by simp [htest]), List.filter_cons_of_neg htest]
      exact ih hmatched

theorem eraseDups_idem (l : List α) : l.eraseDups.eraseDups = l.eraseDups := by
  induction l using List.reverseRecOn with
  | nil => rfl
  | append_singleton l a ih =>
    by_cases ha : a ∈ l
    · rw [eraseDups_append_of_subset (by simpa using ha), ih]
    · have hone : [a].removeAll l = [a] := by
        rw [List.removeAll, List.filter_eq_self]
        intro b hb
        rw [List.mem_singleton.mp hb]
        simpa using ha
      have hconcat : (l ++ [a]).eraseDups = l.eraseDups ++ [a] := by
        rw [List.eraseDups_append, hone]
        rfl
      rw [hconcat]
      exact eraseDups_concat ih (by simpa using ha)

/-- **The loop over the texts** collects the rows that they name. -/
theorem foldl_addMatches : texts.foldl (addMatches test rows) [] = named test rows texts := by
  induction texts using List.reverseRecOn with
  | nil => rfl
  | append_singleton texts text ih =>
    rw [List.foldl_append, List.foldl_cons, List.foldl_nil, ih, named, addMatches_eq
      (eraseDups_idem _), named, List.flatMap_append, List.flatMap_singleton,
      List.eraseDups_append, List.eraseDups_append, eraseDups_idem]
    congr 2
    simp [List.removeAll]

theorem addMatches_nil : addMatches test rows [] text = named test rows [text] := by
  rw [← foldl_addMatches]
  rfl

theorem mem_named :
    row ∈ named test rows texts ↔ row ∈ rows ∧ ∃ text ∈ texts, test text row = true := by
  simp only [named, List.mem_eraseDups, List.mem_flatMap, List.mem_filter]
  constructor
  · rintro ⟨text, htext, hrow, htest⟩
    exact ⟨hrow, text, htext, htest⟩
  · rintro ⟨hrow, text, htext, htest⟩
    exact ⟨text, htext, hrow, htest⟩

theorem named_eq_nil_iff :
    named test rows texts = [] ↔ ∀ row ∈ rows, ∀ text ∈ texts, test text row = false := by
  rw [List.eq_nil_iff_forall_not_mem]
  simp only [mem_named, not_and, not_exists, Bool.not_eq_true]

/-- The rows that the texts name before one that names all, and then all that can be named. -/
def namedBefore (test : String → α → Bool) (able : α → Bool) (rows : List α)
    (before : List String) : List α :=
  (before.flatMap (fun text => rows.filter (test text)) ++ rows.filter able).eraseDups

/-- **Behind a text that names all**, nothing is added. -/
theorem named_of_all (hall : ∀ row, test text row = able row)
    (hable : ∀ text row, test text row = true → able row = true) :
    named test rows (before ++ text :: after) = namedBefore test able rows before := by
  have hfilter : rows.filter (test text) = rows.filter able :=
    List.filter_congr fun row _ => hall row
  rw [named, List.flatMap_append, List.flatMap_cons, hfilter, ← List.append_assoc, namedBefore]
  refine eraseDups_append_of_subset fun row hrow => ?_
  obtain ⟨text', -, hrow⟩ := List.mem_flatMap.mp hrow
  obtain ⟨hrow, htest⟩ := List.mem_filter.mp hrow
  exact List.mem_append_right _ (List.mem_filter.mpr ⟨hrow, hable _ _ htest⟩)

end AnalysisRequestNormalizer

end FinanceIntelligence
