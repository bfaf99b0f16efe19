import FinanceIntelligence.FigureGrammar

/-!
# The characters of decimals

`Decimal` takes digits of any script, a sign, a point, an exponent, underscores anywhere, blanks
around them, and the names of the special values. A text with any other character is refused, and
this needs no look at what the separator rules make of the text: they drop points and commas and
leave everything else.

* `decimalOfText_of_foreign` — a text with another character **is no decimal**;
* `keepsToNumbers_of_foreign` — so the parser **reads no number** from it.
-/

namespace FinanceIntelligence

section Characters

variable {U : CharClass} {s w : List Char} {c : Char}

/-- A text whose digits go to its end has digits only. -/
theorem isSome_digit_of_all (h : (takeDigits U w).2 = []) : ∀ c ∈ w, (U.digit c).isSome := by
  induction w with
  | nil => exact fun _ h => absurd h List.not_mem_nil
  | cons d w ih =>
    rw [takeDigits] at h
    cases hd : U.digit d with
    | none =>
      rw [hd] at h
      cases h
    | some n =>
      rw [hd] at h
      have hrest := ih h
      simp only [List.mem_cons, forall_eq_or_imp, hd, Option.isSome_some, true_and]
      exact hrest

theorem mem_takeSign (hc : c ≠ '-' ∧ c ≠ '+') (h : c ∈ w) : c ∈ (takeSign w).2 := by
  rw [takeSign.eq_def]
  split
  · exact (List.mem_cons.mp h).resolve_left hc.1
  · exact (List.mem_cons.mp h).resolve_left hc.2
  · exact h

/-- A digit is no other ASCII character. -/
theorem ne_of_isSome_digit (hU : U.KnowsAscii) (hc : (U.digit c).isSome) {l : Char}
    (hl : l.toNat < 128) (hno : CharClass.ascii.digit l = none) : c ≠ l := by
  rintro rfl
  rw [hU.digit_eq c hl, hno] at hc
  cases hc

theorem toLower_of_isSome_digit (hU : U.KnowsAscii) (hc : (U.digit c).isSome) : c.toLower = c := by
  refine dif_neg fun hupper => ?_
  have hge : 65 ≤ c.toNat := UInt32.le_iff_toNat_le.mp hupper.1
  have hle : c.toNat ≤ 90 := UInt32.le_iff_toNat_le.mp hupper.2
  have hno : CharClass.ascii.digit c = none := by
    refine if_neg fun hdigit => ?_
    have hlt := (toNat_of_isDigit hdigit).2
    omega
  exact ne_of_isSome_digit hU hc (by omega) hno rfl

/-- A character that can stand in a text that `Decimal` takes: a digit of any script, a blank, an
underscore, a sign, a point, or a letter of an exponent or of the name of a special value. -/
def DecimalChar (U : CharClass) (c : Char) : Prop :=
  (U.digit c).isSome = true ∨ U.space c = true ∨ c ∈ "_-+.".toList ∨ c.toLower ∈ "einfatys".toList

/-- What is no digit is left behind the digits. -/
theorem mem_takeDigits_rest (hdigit : ¬ (U.digit c).isSome = true) (hc : c ∈ s) :
    c ∈ (takeDigits U s).2 := by
  induction s with
  | nil => cases hc
  | cons d s ih =>
    rw [takeDigits]
    cases hd : U.digit d with
    | none => exact hc
    | some n =>
      refine ih ((List.mem_cons.mp hc).resolve_left ?_)
      rintro rfl
      exact hdigit (by rw [hd]; rfl)

section Foreign

variable (h : ¬ DecimalChar U c)

include h

theorem exponentOf_of_foreign (hc : c ∈ s) : exponentOf U s = none := by
  simp only [DecimalChar, not_or] at h
  obtain ⟨hdigit, -, hsign, hletter⟩ := h
  cases s with
  | nil => cases hc
  | cons d s =>
    rw [exponentOf]
    split
    next hd =>
      have hcd : c ≠ d := by
        rintro rfl
        rcases hd with rfl | rfl <;> exact hletter (by decide)
      have hmem := mem_takeDigits_rest hdigit (mem_takeSign
        ⟨fun heq => hsign (by simp [heq]), fun heq => hsign (by simp [heq])⟩
        ((List.mem_cons.mp hc).resolve_left hcd))
      split
      next heq =>
        rw [heq] at hmem
        cases hmem
      next => rfl
    next => rfl

theorem numberOf_of_foreign (hc : c ∈ s) : numberOf U s = none := by
  have hdigit : ¬ (U.digit c).isSome = true := fun hd => h (.inl hd)
  have hrest := mem_takeDigits_rest hdigit hc
  have hnone (l : List ℕ) (x : Option ℤ) (f : ℤ → Option ℚ) (hx : x = none) :
      (if l = [] then none else x.bind f) = none := by
    rw [hx, Option.bind_none, ite_self]
  refine hnone _ _ _ ?_
  split
  next cs heq =>
    rw [heq] at hrest
    refine exponentOf_of_foreign h (mem_takeDigits_rest hdigit
      ((List.mem_cons.mp hrest).resolve_left ?_))
    rintro rfl
    exact h (.inr (.inr (.inl (by decide))))
  next => exact exponentOf_of_foreign h hrest

theorem specialOf_of_foreign (hU : U.KnowsAscii) (hc : c ∈ s) (negative : Bool) :
    specialOf U negative s = none := by
  have hmem : c.toLower ∈ s.map Char.toLower := List.mem_map_of_mem hc
  have hletter : c.toLower ∉ "einfatys".toList := fun hl => h (.inr (.inr (.inr hl)))
  have hdigit : ¬ (U.digit c.toLower).isSome = true := by
    intro hd
    rcases toLower_cases c with ⟨hge, hle, hlower⟩ | ⟨-, hlower⟩
    · refine ne_of_isSome_digit hU hd (l := c.toLower) (by omega) (if_neg fun hascii => ?_) rfl
      have hlt := (toNat_of_isDigit hascii).2
      omega
    · exact h (.inl (hlower ▸ hd))
  have hname (n : ℕ) (t : List Char) (ht : t ⊆ "einfatys".toList) :
      ¬ ((s.map Char.toLower).take n = t ∧
        (takeDigits U ((s.map Char.toLower).drop n)).2 = []) := by
    rintro ⟨htake, hdigits⟩
    rw [← List.take_append_drop n (s.map Char.toLower), List.mem_append] at hmem
    obtain hmem | hmem := hmem
    · exact hletter (ht (htake ▸ hmem))
    · exact hdigit (isSome_digit_of_all hdigits _ hmem)
  rw [specialOf]
  rw [if_neg, if_neg (hname 3 _ (by decide)), if_neg (hname 4 _ (by decide))]
  rintro (heq | heq)
  · exact hletter ((by decide : "inf".toList ⊆ "einfatys".toList) (heq ▸ hmem))
  · exact hletter ((by decide : "infinity".toList ⊆ "einfatys".toList) (heq ▸ hmem))

/-- A text with a character that stands in no decimal is no decimal. -/
theorem decimalOfText_of_foreign (hU : U.KnowsAscii) (hc : c ∈ s) : decimalOfText U s = none := by
  have hplain : ∀ d ∈ "_-+.".toList, c ≠ d := by
    rintro d hd rfl
    exact h (.inr (.inr (.inl hd)))
  have hkept : c ∈ (strip U s).filter (· != '_') :=
    List.mem_filter.mpr ⟨mem_strip (Bool.eq_false_iff.mpr fun hs => h (.inr (.inl hs))) hc,
      bne_iff_ne.mpr (hplain '_' (by decide))⟩
  have hmem := mem_takeSign ⟨hplain '-' (by decide), hplain '+' (by decide)⟩ hkept
  simp only [decimalOfText, numberOf_of_foreign h hmem, specialOf_of_foreign h hU hmem]

end Foreign

/-! ## The parser -/

open NormalizationService

variable {T : TextCase} {raw : List Char} {localeHint : Option String}

/-- The separator rules touch points and commas only. -/
theorem mem_separators (hpoint : c ≠ '.') (hcomma : c ≠ ',') (hc : c ∈ s) :
    c ∈ (separators s localeHint).1 := by
  have hremove {d : Char} (hd : c ≠ d) : c ∈ removeChar d s :=
    List.mem_filter.mpr ⟨hc, bne_iff_ne.mpr hd⟩
  have hreplace {t : List Char} (ht : c ∈ t) : c ∈ replaceChar ',' '.' t :=
    List.mem_map.mpr ⟨c, ht, if_neg hcomma⟩
  simp only [separators]
  split_ifs
  · exact hremove hcomma
  · exact hreplace (hremove hpoint)
  all_goals first | exact hc | exact hreplace hc | exact hremove hcomma | exact hremove hpoint

/-- **No number is read** from a text in which, within its sign, a character stands that is no
comma and stands in no decimal. -/
theorem keepsToNumbers_of_foreign (hU : U.KnowsAscii) (h : ¬ DecimalChar U c) (hcomma : c ≠ ',')
    (hc : c ∈ (takeNegative U (bare U raw)).2) : KeepsToNumbers U T raw localeHint := by
  have hpoint : c ≠ '.' := by
    rintro rfl
    exact h (.inr (.inr (.inl (by decide))))
  have hfigure : figureChar c = false := by
    have hdigit : c.isDigit = false := Bool.eq_false_iff.mpr fun hd =>
      h (.inl (by rw [hU.digit_isDigit hd]; rfl))
    simp [figureChar, hdigit, hpoint, hcomma]
  have hrefused (negative : Bool) :
      Refused U (separators (takeNegative U (bare U raw)).2 localeHint).1 negative := by
    rw [Refused, decimalOfText_of_foreign h hU (mem_separators hpoint hcomma hc)]
    trivial
  refine .inr (.inr ?_)
  rw [if_neg fun hall => Bool.eq_false_iff.mp hfigure (List.all_eq_true.mp hall.1 c hc)]
  exact hrefused _

end Characters

end FinanceIntelligence
