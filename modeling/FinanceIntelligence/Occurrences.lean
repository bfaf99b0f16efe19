import Mathlib.Data.List.Infix

/-!
# Occurrences in their surroundings

A text occurs in another one between what stands before it and what stands behind it.
Whether such a place counts may depend on both: a number is only found where no digit
touches it, a word only between blanks.

* `StandsIn` — an occurrence whose **surroundings fit**, decided by trying every place;
* `standsIn_iff_not_spoiltIn` — a text that does not stand in another one is **spoilt at
  every place**.
-/

namespace FinanceIntelligence

variable {α : Type} {fits fits' : List α → List α → Bool} {p s : List α}

/-- `p` occurs in `s`, with surroundings that fit. -/
def StandsIn (fits : List α → List α → Bool) (p s : List α) : Prop :=
  ∃ before after, before ++ p ++ after = s ∧ fits before after = true

/-- The surroundings of every occurrence of `p` in `s` do not fit. -/
def SpoiltIn (fits : List α → List α → Bool) (p s : List α) : Prop :=
  ∀ before after, before ++ p ++ after = s → fits before after = false

theorem StandsIn.infix (h : StandsIn fits p s) : p <:+: s := by
  obtain ⟨before, after, hs, -⟩ := h
  exact ⟨before, after, hs⟩

theorem not_standsIn_iff : ¬ StandsIn fits p s ↔ SpoiltIn fits p s := by
  simp only [StandsIn, SpoiltIn, not_exists, not_and, Bool.not_eq_true]

theorem standsIn_iff_not_spoiltIn : StandsIn fits p s ↔ ¬ SpoiltIn fits p s := by
  rw [← not_standsIn_iff, not_not]

/-- The places at which a text can stand. -/
theorem standsIn_iff_exists_place :
    StandsIn fits p s ↔ ∃ n < s.length + 1,
      p <+: s.drop n ∧ fits (s.take n) (s.drop (n + p.length)) = true := by
  constructor
  · rintro ⟨before, after, rfl, hfit⟩
    refine ⟨before.length, by simp only [List.length_append]; omega, ?_, ?_⟩
    · rw [List.append_assoc, List.drop_left]
      exact List.prefix_append p after
    · rw [← List.length_append, List.drop_left, List.append_assoc, List.take_left]
      exact hfit
  · rintro ⟨n, -, ⟨after, hafter⟩, hfit⟩
    refine ⟨s.take n, after, ?_, ?_⟩
    · rw [List.append_assoc, hafter, List.take_append_drop]
    · rwa [← List.drop_drop, ← hafter, List.drop_left] at hfit

instance [DecidableEq α] : Decidable (StandsIn fits p s) :=
  decidable_of_iff' _ standsIn_iff_exists_place

end FinanceIntelligence
