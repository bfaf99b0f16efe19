import Mathlib.Data.List.Basic
import Mathlib.Data.List.Infix
import Mathlib.Data.List.TakeWhile

/-!
# Texts as words

A text is taken apart into words, the longest runs of letters, and words are joined with
one separator between them. What becomes of a text if all that is no letter is squashed to
single separators is told by its words.

* `trimEnds_squash` — the squashed text, with nothing at its ends, **joins the words**;
* `words_joinWords` — joining is undone by **taking apart**;
* `joinWords_infix` — words that follow each other in a list are **a part of the joined text**.
-/

namespace FinanceIntelligence

variable {α : Type} (letter : α → Bool) (sep : α)

/-- The longest runs of letters. -/
def words : List α → List (List α)
  | [] => []
  | c :: s =>
    if letter c then
      if s.head?.any letter then (words s).modifyHead (c :: ·) else [c] :: words s
    else words s

/-- Words with a separator between them. -/
def joinWords : List (List α) → List α
  | [] => []
  | [w] => w
  | w :: w' :: ws => w ++ sep :: joinWords (w' :: ws)

/-- Every run of other characters becomes one separator; `gap` says that one was written. -/
def squash (gap : Bool) : List α → List α
  | [] => []
  | c :: s =>
    if letter c then c :: squash false s
    else if gap then squash true s else sep :: squash true s

/-- A text without the blanks at its ends. -/
def trimEnds (blank : α → Bool) (s : List α) : List α :=
  ((s.dropWhile blank).reverse.dropWhile blank).reverse

/-- Words, and nothing else: each has a letter, and no other character. -/
def AreWords (ws : List (List α)) : Prop := ∀ w ∈ ws, w ≠ [] ∧ ∀ c ∈ w, letter c = true

variable {letter sep} {w s : List α} {ws : List (List α)}

/-! ## Taking apart -/

theorem words_letters_append (hw : w ≠ []) (hletters : ∀ c ∈ w, letter c = true)
    (hs : s.head?.any letter = false) : words letter (w ++ s) = w :: words letter s := by
  induction w with
  | nil => exact absurd rfl hw
  | cons c w ih =>
    obtain ⟨hc, hrest⟩ := List.forall_mem_cons.mp hletters
    rw [List.cons_append, words, if_pos hc]
    cases w with
    | nil =>
      rw [List.nil_append, if_neg (by simp [hs])]
    | cons d w =>
      have hd : letter d = true := (List.forall_mem_cons.mp hrest).1
      rw [if_pos (by simp [hd]), ih (List.cons_ne_nil d w) hrest, List.modifyHead_cons]

theorem words_cons_of_not (c : α) (hc : letter c = false) :
    words letter (c :: s) = words letter s := by
  rw [words, if_neg (by simp [hc])]

theorem words_ne_nil_of_head {c : α} (hc : letter c = true) (s : List α) :
    words letter (c :: s) ≠ [] := by
  induction s generalizing c with
  | nil => simp [words, hc]
  | cons d s ih =>
    rw [words, if_pos hc]
    split
    · rename_i hd
      intro hnil
      exact ih (c := d) (by simpa using hd) (List.modifyHead_eq_nil_iff.mp hnil)
    · exact List.cons_ne_nil _ _

/-- **Taking apart undoes joining.** -/
theorem words_joinWords (hsep : letter sep = false) (hws : AreWords letter ws) :
    words letter (joinWords sep ws) = ws := by
  induction ws with
  | nil => rfl
  | cons w ws ih =>
    obtain ⟨⟨hne, hletters⟩, hrest⟩ := List.forall_mem_cons.mp hws
    cases ws with
    | nil =>
      have h := words_letters_append (s := []) hne hletters rfl
      rwa [List.append_nil] at h
    | cons w' ws =>
      rw [joinWords, words_letters_append hne hletters (by simp [hsep]), words_cons_of_not sep hsep,
        ih hrest]

/-- What is taken apart is words. -/
theorem areWords_words (letter : α → Bool) (s : List α) : AreWords letter (words letter s) := by
  induction s with
  | nil => exact fun w hw => absurd hw List.not_mem_nil
  | cons c s ih =>
    rw [words]
    split
    · rename_i hc
      split
      · cases hwords : words letter s with
        | nil => exact fun w hw => absurd hw List.not_mem_nil
        | cons w ws =>
          rw [hwords] at ih
          obtain ⟨⟨-, hletters⟩, hrest⟩ := List.forall_mem_cons.mp ih
          exact List.forall_mem_cons.mpr
            ⟨⟨List.cons_ne_nil c w, List.forall_mem_cons.mpr ⟨hc, hletters⟩⟩, hrest⟩
      · exact List.forall_mem_cons.mpr ⟨⟨List.cons_ne_nil c [], by simpa using hc⟩, ih⟩
    · exact ih

/-! ## Squashing -/

/-- The separator in front of the first word, if something else starts the text. -/
def leadingGap (letter : α → Bool) (sep : α) (s : List α) : List α :=
  if s.head?.any (fun c => !letter c) then [sep] else []

theorem squash_false_eq (s : List α) :
    squash letter sep false s = leadingGap letter sep s ++ squash letter sep true s := by
  cases s with
  | nil => rfl
  | cons c s =>
    rw [squash, squash, leadingGap]
    split
    · rename_i hc
      simp [hc]
    · rename_i hc
      simp [hc]

theorem joinWords_append {vs : List (List α)} (hws : ws ≠ []) (hvs : vs ≠ []) :
    joinWords sep (ws ++ vs) = joinWords sep ws ++ sep :: joinWords sep vs := by
  induction ws with
  | nil => exact absurd rfl hws
  | cons w ws ih =>
    cases ws with
    | nil =>
      obtain ⟨v, vs, rfl⟩ := List.exists_cons_of_ne_nil hvs
      rfl
    | cons w' ws =>
      have hrest := ih (List.cons_ne_nil w' ws)
      rw [List.cons_append] at hrest
      rw [List.cons_append, List.cons_append, joinWords, hrest, joinWords, List.append_assoc,
        List.cons_append]

/-- The joined text starts with its first word. -/
theorem prefix_joinWords (sep : α) (w : List α) (ws : List (List α)) :
    w <+: joinWords sep (w :: ws) := by
  cases ws with
  | nil => exact List.prefix_rfl
  | cons w' ws => exact List.prefix_append w _

/-- The joined text ends with its last word. -/
theorem suffix_joinWords (sep : α) (ws : List (List α)) (w : List α) :
    w <:+ joinWords sep (ws ++ [w]) := by
  rcases eq_or_ne ws [] with rfl | hws
  · exact List.suffix_rfl
  · rw [joinWords_append hws (List.cons_ne_nil w [])]
    exact ⟨joinWords sep ws ++ [sep], by simp [joinWords]⟩

theorem joinWords_modifyHead (c : α) (w : List α) (ws : List (List α)) :
    joinWords sep ((w :: ws).modifyHead (c :: ·)) = c :: joinWords sep (w :: ws) := by
  cases ws with
  | nil => rfl
  | cons w' ws => rfl

/-- The squashed text is the words, joined, and possibly a separator behind the last one. -/
theorem squash_true_eq (letter : α → Bool) (sep : α) (s : List α) :
    ∃ behind, (∀ c ∈ behind, c = sep) ∧ (words letter s = [] → behind = []) ∧
      squash letter sep true s = joinWords sep (words letter s) ++ behind := by
  induction s with
  | nil => exact ⟨[], by simp, fun _ => rfl, rfl⟩
  | cons c s ih =>
    obtain ⟨behind, hbehind, hnone, hsquash⟩ := ih
    rw [squash, words]
    split
    · rename_i hc
      rw [squash_false_eq, hsquash]
      cases s with
      | nil => exact ⟨[], by simp, fun _ => rfl, by simp [leadingGap, hnone rfl, words, joinWords]⟩
      | cons d s =>
        cases hd : letter d with
        | true =>
          -- the first word goes on
          rw [if_pos (by simp [hd]), leadingGap, if_neg (by simp [hd]), List.nil_append]
          cases hwords : words letter (d :: s) with
          | nil => exact absurd hwords (words_ne_nil_of_head hd s)
          | cons w ws =>
            rw [hwords] at hnone
            exact ⟨behind, hbehind, nofun, by rw [joinWords_modifyHead, List.cons_append]⟩
        | false =>
          -- the word ends here
          rw [if_neg (by simp [hd]), leadingGap, if_pos (by simp [hd])]
          cases hwords : words letter (d :: s) with
          | nil =>
            rw [hwords] at hnone
            exact ⟨[sep], by simp, nofun, by simp [hnone rfl, joinWords]⟩
          | cons w ws => exact ⟨behind, hbehind, nofun, by simp [joinWords]⟩
    · exact ⟨behind, hbehind, hnone, hsquash⟩

/-- What stands between blanks, and neither starts nor ends with one, is left by `trimEnds`. -/
theorem trimEnds_append {blank : α → Bool} {before after : List α}
    (hbefore : ∀ c ∈ before, blank c = true) (hafter : ∀ c ∈ after, blank c = true)
    (hhead : s.head?.any blank = false) (hlast : s.getLast?.any blank = false) :
    trimEnds blank (before ++ s ++ after) = s := by
  have hleft : ∀ {t u : List α}, t.head?.any blank = false → (∀ c ∈ u, blank c = true) →
      (u ++ t).dropWhile blank = t := by
    intro t u ht hu
    rw [List.dropWhile_append_of_pos hu]
    cases t with
    | nil => rfl
    | cons c t => exact List.dropWhile_cons_of_neg (by simpa using ht)
  cases s with
  | nil =>
    have hall : ∀ c ∈ before ++ [] ++ after, blank c = true := by
      simpa [or_imp, forall_and] using ⟨hbefore, hafter⟩
    rw [trimEnds, List.dropWhile_eq_nil_iff.mpr hall]
    rfl
  | cons c s =>
    rw [trimEnds, List.append_assoc, hleft (by simpa using hhead) hbefore, List.reverse_append,
      hleft (by rwa [List.head?_reverse]) (by simpa using hafter), List.reverse_reverse]

/-- **The squashed text** without blanks at its ends is the words, joined. -/
theorem trimEnds_squash {blank : α → Bool} (hsep : blank sep = true)
    (hletter : ∀ c, letter c = true → blank c = false) (s : List α) :
    trimEnds blank (squash letter sep false s) = joinWords sep (words letter s) := by
  obtain ⟨behind, hbehind, -, hsquash⟩ := squash_true_eq letter sep s
  rw [squash_false_eq, hsquash, ← List.append_assoc]
  have hwords := areWords_words letter s
  refine trimEnds_append ?_ (fun c hc => hbehind c hc ▸ hsep) ?_ ?_
  · intro c hc
    rw [leadingGap] at hc
    split at hc
    · exact List.mem_singleton.mp hc ▸ hsep
    · exact absurd hc List.not_mem_nil
  · -- the first character is a letter
    cases hws : words letter s with
    | nil => rfl
    | cons w ws =>
      obtain ⟨⟨hne, hletters⟩, -⟩ := List.forall_mem_cons.mp (hws ▸ hwords)
      obtain ⟨c, w, rfl⟩ := List.exists_cons_of_ne_nil hne
      obtain ⟨t, ht⟩ := prefix_joinWords sep (c :: w) ws
      rw [← ht, List.cons_append, List.head?_cons]
      exact hletter c (hletters c List.mem_cons_self)
  · -- so is the last one
    rcases List.eq_nil_or_concat (words letter s) with hws | ⟨ws, w, hws⟩
    · rw [hws]
      rfl
    · rw [List.concat_eq_append] at hws
      have hw := hwords w (by simp [hws])
      obtain ⟨t, ht⟩ := suffix_joinWords sep ws w
      rw [hws, ← ht, List.getLast?_append_of_ne_nil _ hw.1, List.getLast?_eq_some_getLast hw.1]
      exact hletter _ (hw.2 _ (List.getLast_mem hw.1))

/-! ## Parts -/

/-- **Words that follow each other** are a part of the joined text. -/
theorem joinWords_infix (sep : α) {vs : List (List α)} (hne : ws ≠ []) (h : ws <:+: vs) :
    joinWords sep ws <:+: joinWords sep vs := by
  obtain ⟨before, after, rfl⟩ := h
  have hstart : joinWords sep ws <:+: joinWords sep (ws ++ after) := by
    rcases eq_or_ne after [] with rfl | hafter
    · rw [List.append_nil]
    · rw [joinWords_append hne hafter]
      exact (List.prefix_append _ _).isInfix
  rw [List.append_assoc]
  rcases eq_or_ne before [] with rfl | hbefore
  · exact hstart
  · rw [joinWords_append hbefore (by simp [hne])]
    exact hstart.trans (((List.suffix_cons sep _).trans (List.suffix_append _ _)).isInfix)

end FinanceIntelligence
