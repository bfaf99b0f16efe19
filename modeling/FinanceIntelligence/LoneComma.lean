import FinanceIntelligence.LocaleMirror
import FinanceIntelligence.DecimalCharacters

/-!
# Where two locales agree

Of a text with a lone comma, the Turkish reading takes the digits on both sides as one number, and
the English reading of the mirror image takes those behind it as decimals.

* `decimal_pointed`, `decimal_dropped` — **the two numbers**: they differ by a power of ten.
* `signedDecimal_loneComma_iff` — when they are the same nevertheless.
* `readAlike_iff` — **the texts that the two locales read alike**.
-/

namespace FinanceIntelligence

section Digits

variable {U : CharClass} {w b r : List Char} {c : Char}

/-- Digits up to the end of a text go on in what follows it. -/
theorem takeDigits_of_all (h : (takeDigits U w).2 = []) (t : List Char) :
    takeDigits U (w ++ t) = ((takeDigits U w).1 ++ (takeDigits U t).1, (takeDigits U t).2) := by
  induction w with
  | nil => rfl
  | cons c w ih =>
    rw [List.cons_append]
    simp only [takeDigits] at h ⊢
    cases hc : U.digit c with
    | none =>
      rw [hc] at h
      cases h
    | some d =>
      rw [hc] at h
      simp only [ih h, List.cons_append]

/-- What stops the digits stops them whatever follows. -/
theorem takeDigits_of_stop (h : (takeDigits U w).2 = c :: r) (t : List Char) :
    takeDigits U (w ++ t) = ((takeDigits U w).1, c :: r ++ t) := by
  induction w with
  | nil => cases h
  | cons d w ih =>
    rw [List.cons_append]
    simp only [takeDigits] at h ⊢
    cases hd : U.digit d with
    | none =>
      rw [hd] at h
      obtain ⟨rfl, rfl⟩ := List.cons.inj h
      rfl
    | some n =>
      rw [hd] at h
      simp only [ih h]

/-- Where there are digits, the first character is one. -/
theorem exists_digit_of_ne_nil (h : (takeDigits U w).1 ≠ []) :
    ∃ c t, w = c :: t ∧ (U.digit c).isSome := by
  cases w with
  | nil => exact absurd rfl h
  | cons c t =>
    refine ⟨c, t, rfl, ?_⟩
    rw [takeDigits] at h
    cases hc : U.digit c with
    | none =>
      rw [hc] at h
      exact absurd rfl h
    | some n => rfl

/-- What is left behind the digits is a part of the text. -/
theorem takeDigits_suffix (w : List Char) : (takeDigits U w).2 <:+ w := by
  induction w with
  | nil => exact List.suffix_rfl
  | cons d w ih =>
    rw [takeDigits]
    split
    · exact ih.trans (List.suffix_cons d w)
    · exact List.suffix_rfl

/-- The sign in front of a text is in front of all that goes on. -/
theorem takeSign_append (hw : w ≠ []) (t : List Char) :
    takeSign (w ++ t) = ((takeSign w).1, (takeSign w).2 ++ t) := by
  cases w with
  | nil => exact absurd rfl hw
  | cons c w =>
    rw [List.cons_append, takeSign.eq_def, takeSign.eq_def (c :: w)]
    split <;> simp_all

/-- A digit is no sign. -/
theorem takeSign_of_digit (hU : U.KnowsAscii) (hc : (U.digit c).isSome) (t : List Char) :
    takeSign (c :: t) = (false, c :: t) := by
  rw [takeSign]
  · rintro _ ⟨⟩
    exact ne_of_isSome_digit hU hc (l := '-') (by decide) (by decide) rfl
  · rintro _ ⟨⟩
    exact ne_of_isSome_digit hU hc (l := '+') (by decide) (by decide) rfl

/-- The number of digits, of which some are decimals, and of what follows them. -/
def scaledNumber (U : CharClass) (digits : List ℕ) (rest : List Char) (places : ℕ) : Option ℚ :=
  if digits = [] then none else
    (exponentOf U rest).bind fun e =>
      let n := ofDigitList digits
      let e := e - places
      if n ≠ 0 ∧ (maxEmax < e + Nat.log 10 n ∨ e < -2 * maxEmax + 1) then none
      else some (n * (10 : ℚ) ^ e)

/-- Digits and what goes on without a point. -/
theorem numberOf_dropped (hw : (takeDigits U w).2 = []) (hb : '.' ∉ b) : numberOf U (w ++ b) =
    scaledNumber U ((takeDigits U w).1 ++ (takeDigits U b).1) (takeDigits U b).2 0 := by
  have hrest : '.' ∉ (takeDigits U b).2 := fun h => hb ((takeDigits_suffix b).subset h)
  rw [numberOf, scaledNumber]
  simp only [takeDigits_of_all hw]
  split
  · rename_i cs hcs
    rw [hcs] at hrest
    exact absurd (List.mem_cons_self ..) hrest
  · simp

/-- Digits, and decimals behind a point. -/
theorem numberOf_pointed (hU : U.KnowsAscii) (hw : (takeDigits U w).2 = []) :
    numberOf U (w ++ '.' :: b) = scaledNumber U ((takeDigits U w).1 ++ (takeDigits U b).1)
      (takeDigits U b).2 (takeDigits U b).1.length := by
  have hpoint : takeDigits U ('.' :: b) = ([], '.' :: b) := by
    rw [takeDigits, hU.digit_point]
  rw [numberOf, scaledNumber]
  simp only [takeDigits_of_all hw, hpoint, List.append_nil]

/-- No exponent has a point in it. -/
theorem exponentOf_of_point (hU : U.KnowsAscii) (h : '.' ∈ r) : exponentOf U (c :: r) = none := by
  rw [exponentOf]
  split
  · split
    · rename_i d ds hdigits
      have hall : (takeDigits U (takeSign r).2).2 = [] := by rw [hdigits]
      have hpoint := isSome_digit_of_all hall '.' (mem_takeSign (by decide) h)
      rw [hU.digit_point] at hpoint
      cases hpoint
    · rfl
  · rfl

/-- What stops the digits before a point leaves no number. -/
theorem numberOf_of_stop (hU : U.KnowsAscii) (hw : '.' ∉ w) (h : (takeDigits U w).2 = c :: r) :
    numberOf U (w ++ '.' :: b) = none := by
  have hc : c ≠ '.' := by
    rintro rfl
    exact hw ((takeDigits_suffix w).subset (h ▸ List.mem_cons_self ..))
  have hexponent : exponentOf U (c :: r ++ '.' :: b) = none :=
    exponentOf_of_point hU (by simp)
  rw [numberOf]
  simp only [takeDigits_of_stop h]
  split
  · rename_i cs hcs
    exact absurd (List.cons.inj hcs).1 hc
  · have hexponent' : exponentOf U (c :: (r ++ '.' :: b)) = none := hexponent
    simp only [List.cons_append, hexponent', Option.bind_none, ite_self]

/-- No special value has a point in it. -/
theorem specialOf_of_point (hU : U.KnowsAscii) (h : '.' ∈ w) (negative : Bool) :
    specialOf U negative w = none := by
  have hmem : '.' ∈ w.map Char.toLower := List.mem_map.mpr ⟨'.', h, rfl⟩
  have hnan (n : ℕ) (s : List Char) (hs : '.' ∉ s) : ¬ ((w.map Char.toLower).take n = s ∧
      (takeDigits U ((w.map Char.toLower).drop n)).2 = []) := by
    rintro ⟨htake, hdigits⟩
    rw [← List.take_append_drop n (w.map Char.toLower), List.mem_append] at hmem
    obtain hmem | hmem := hmem
    · exact hs (htake ▸ hmem)
    · have hpoint := isSome_digit_of_all hdigits '.' hmem
      rw [hU.digit_point] at hpoint
      cases hpoint
  rw [specialOf]
  rw [if_neg, if_neg (hnan 3 _ (by decide)), if_neg (hnan 4 _ (by decide))]
  rintro (heq | heq)
  · rw [heq] at hmem
    revert hmem
    decide
  · rw [heq] at hmem
    revert hmem
    decide

/-- No special value starts with a digit. -/
theorem specialOf_of_digit (hU : U.KnowsAscii) (hc : (U.digit c).isSome) (negative : Bool) :
    specialOf U negative (c :: w) = none := by
  have hhead {l : Char} {n : ℕ} {t : List Char} (hl : l.toNat < 128)
      (hno : CharClass.ascii.digit l = none) :
      (c :: w.map Char.toLower).take (n + 1) ≠ l :: t := fun heq =>
    ne_of_isSome_digit hU hc hl hno (List.cons.inj heq).1
  rw [specialOf]
  simp only [List.map_cons, toLower_of_isSome_digit hU hc]
  rw [if_neg, if_neg fun h => hhead (l := 'n') (by decide) (by decide) h.1,
    if_neg fun h => hhead (l := 's') (by decide) (by decide) h.1]
  rintro (heq | heq)
  · exact ne_of_isSome_digit hU hc (l := 'i') (by decide) (by decide) (List.cons.inj heq).1
  · exact ne_of_isSome_digit hU hc (l := 'i') (by decide) (by decide) (List.cons.inj heq).1

end Digits

/-! ## The two numbers -/

section Readings

open NormalizationService

variable {U : CharClass} {s t : List Char}

/-- A text as `Decimal` reads it, without underscores. -/
def unscored (s : List Char) : List Char := s.filter (· != '_')

/-- The digits before and after the comma, up to an exponent. -/
def mantissaDigits (U : CharClass) (s : List Char) : List ℕ :=
  (takeDigits U (takeSign (unscored (removeChar ',' s))).2).1

/-- The digits right after the comma. -/
def fractionDigits (U : CharClass) (s : List Char) : List ℕ :=
  (takeDigits U ((unscored s).dropWhile (· != ',')).tail).1

/-- What stands on the two sides of a lone comma. -/
theorem LoneComma.exists_parts (h : LoneComma s) :
    ∃ w b, s = w ++ ',' :: b ∧ '.' ∉ w ∧ ',' ∉ w ∧ '.' ∉ b ∧ ',' ∉ b := by
  obtain ⟨hdot, hcount, -⟩ := h
  obtain ⟨w, b, rfl⟩ := List.append_of_mem (List.count_pos_iff.mp (by omega : 0 < s.count ','))
  simp only [List.mem_append, List.mem_cons, not_or] at hdot
  rw [List.count_append, List.count_cons_self] at hcount
  exact ⟨w, b, rfl, hdot.1, List.count_eq_zero.mp (by omega), hdot.2.2,
    List.count_eq_zero.mp (by omega)⟩

section Parts

variable {w b : List Char}

theorem removeChar_parts (hw : ',' ∉ w) (hb : ',' ∉ b) :
    removeChar ',' (w ++ ',' :: b) = w ++ b := by
  have hkeep {l : List Char} (hl : ',' ∉ l) : l.filter (· != ',') = l := by
    refine List.filter_eq_self.mpr fun c hc => bne_iff_ne.mpr ?_
    rintro rfl
    exact hl hc
  rw [removeChar, List.filter_append, List.filter_cons_of_neg (by decide), hkeep hw, hkeep hb]

theorem replaceChar_parts (hw : ',' ∉ w) (hb : ',' ∉ b) :
    replaceChar ',' '.' (w ++ ',' :: b) = w ++ '.' :: b := by
  have hkeep {l : List Char} (hl : ',' ∉ l) :
      l.map (fun c => if c = ',' then '.' else c) = l := by
    refine (List.map_congr_left fun c hc => if_neg ?_).trans (List.map_id' l)
    rintro rfl
    exact hl hc
  rw [replaceChar, List.map_append, List.map_cons, hkeep hw, hkeep hb, if_pos rfl]

theorem unscored_append_cons {c : Char} (hc : c ≠ '_') :
    unscored (w ++ c :: b) = unscored w ++ c :: unscored b := by
  rw [unscored, List.filter_append, List.filter_cons_of_pos (by simpa using hc)]
  rfl

theorem fractionDigits_parts (hw : ',' ∉ w) :
    fractionDigits U (w ++ ',' :: b) = (takeDigits U (unscored b)).1 := by
  have hbefore : ∀ c ∈ unscored w, (c != ',') = true := by
    refine fun c hc => bne_iff_ne.mpr ?_
    rintro rfl
    exact hw (List.mem_of_mem_filter hc)
  rw [fractionDigits, unscored_append_cons (by decide), List.dropWhile_append_of_pos hbefore,
    List.dropWhile_cons_of_neg (by decide), List.tail_cons]

/-- A point at the front of a text is no sign. -/
theorem takeSign_append_point : takeSign (w ++ '.' :: b) =
    ((takeSign w).1, (takeSign w).2 ++ '.' :: b) := by
  obtain rfl | hne := eq_or_ne w []
  · rfl
  · exact takeSign_append hne _

end Parts

/-- `Decimal` on a text without blanks. -/
theorem decimalOfText_eq (ht : ∀ c ∈ t, U.space c = false) : decimalOfText U t =
    match numberOf U (takeSign (unscored t)).2 with
    | some q => some (.finite (signedBy (takeSign (unscored t)).1 q))
    | none => specialOf U (takeSign (unscored t)).1 (takeSign (unscored t)).2 := by
  rw [decimalOfText, strip_of_forall ht]
  rfl

/-- **The two numbers** of a text with a lone comma: what `Decimal` reads with a point in its place
has the same digits without, and the same exponent, but no decimals. -/
theorem decimal_of_pointed (hU : U.KnowsAscii) (hs : ∀ c ∈ s, U.space c = false) (h : LoneComma s)
    {v : PyDecimal} (hv : decimalOfText U (replaceChar ',' '.' s) = some v) :
    ∃ sg rest q, v = .finite (signedBy sg q) ∧
      scaledNumber U (mantissaDigits U s) rest (fractionDigits U s).length = some q ∧
      decimalOfText U (removeChar ',' s) =
        (scaledNumber U (mantissaDigits U s) rest 0).map fun x => .finite (signedBy sg x) := by
  obtain ⟨w, b, rfl, hwd, hwc, hbd, hbc⟩ := h.exists_parts
  have hspace : ∀ c ∈ w ++ b, U.space c = false := fun c hc => hs c (by
    simp only [List.mem_append, List.mem_cons] at hc ⊢
    exact hc.imp_right .inr)
  have hpoint : ∀ c ∈ w ++ '.' :: b, U.space c = false := by
    simp only [List.mem_append, List.mem_cons] at hspace ⊢
    rintro c (hc | rfl | hc)
    · exact hspace c (.inl hc)
    · exact hU.space_eq '.' (by decide)
    · exact hspace c (.inr hc)
  have hW : '.' ∉ (takeSign (unscored w)).2 := fun hmem => by
    have hsuffix : (takeSign (unscored w)).2 <:+ unscored w := by
      rw [takeSign.eq_def]
      split
      · rename_i heq
        exact heq ▸ List.suffix_cons ..
      · rename_i heq
        exact heq ▸ List.suffix_cons ..
      · exact List.suffix_rfl
    exact hwd (List.mem_of_mem_filter (hsuffix.subset hmem))
  have hB : '.' ∉ unscored b := fun hmem => hbd (List.mem_of_mem_filter hmem)
  have happend : unscored (w ++ b) = unscored w ++ unscored b := List.filter_append ..
  rw [replaceChar_parts hwc hbc, decimalOfText_eq hpoint, unscored_append_cons (by decide),
    takeSign_append_point] at hv
  simp only [specialOf_of_point hU (w := (takeSign (unscored w)).2 ++ '.' :: unscored b)
    (by simp)] at hv
  cases hdigits : (takeDigits U (takeSign (unscored w)).2).2 with
  | cons c r =>
    rw [numberOf_of_stop hU hW hdigits] at hv
    cases hv
  | nil =>
    rw [numberOf_pointed hU hdigits] at hv
    set digits := (takeDigits U (takeSign (unscored w)).2).1 ++ (takeDigits U (unscored b)).1
      with hdef
    obtain ⟨q, hq⟩ : ∃ q, scaledNumber U digits (takeDigits U (unscored b)).2
        (takeDigits U (unscored b)).1.length = some q := by
      cases hq : scaledNumber U digits (takeDigits U (unscored b)).2
          (takeDigits U (unscored b)).1.length with
      | none =>
        rw [hq] at hv
        cases hv
      | some q => exact ⟨q, rfl⟩
    rw [hq] at hv
    have hne : digits ≠ [] := fun hnil => by
      rw [hnil, scaledNumber, if_pos rfl] at hq
      cases hq
    -- a sign right behind the comma would leave no digits
    have hsign : takeSign (unscored w ++ unscored b) =
        ((takeSign (unscored w)).1, (takeSign (unscored w)).2 ++ unscored b) := by
      obtain hnil | hnil := eq_or_ne (unscored w) []
      · rw [hdef, hnil] at hne
        obtain ⟨c, t, ht, hc⟩ := exists_digit_of_ne_nil (U := U) (w := unscored b) hne
        rw [hnil, ht, List.nil_append, takeSign_of_digit hU hc]
        rfl
      · exact takeSign_append hnil _
    have hall := takeDigits_of_all hdigits (unscored b)
    have hmantissa : mantissaDigits U (w ++ ',' :: b) = digits := by
      rw [mantissaDigits, removeChar_parts hwc hbc, happend, hsign, hall]
    refine ⟨(takeSign (unscored w)).1, (takeDigits U (unscored b)).2, q,
      (Option.some.inj hv).symm, ?_, ?_⟩
    · rw [hmantissa, fractionDigits_parts hwc]
      exact hq
    · rw [removeChar_parts hwc hbc, decimalOfText_eq hspace, happend, hsign,
        numberOf_dropped hdigits hB, hmantissa]
      cases scaledNumber U digits (takeDigits U (unscored b)).2 0 with
      | some x => rfl
      | none =>
        obtain ⟨c, t, ht, hc⟩ := exists_digit_of_ne_nil
          (w := (takeSign (unscored w)).2 ++ unscored b) (by rw [hall]; exact hne)
        simp only [ht, specialOf_of_digit hU hc, Option.map_none]

/-! ## Texts that read the same -/

/-- `Decimal` takes the text; a signaling NaN cannot be negated. -/
def Accepted (U : CharClass) (s : List Char) (negative : Bool) : Prop :=
  match decimalOfText U s with
  | none => False
  | some v => ¬ (negative = true ∧ v = .nan true)

/-- The numbers of a text, without its comma and with a point in its place, are both too large for
the decimal context, or both too small. -/
def BeyondRange (U : CharClass) (s : List Char) : Prop :=
  ∃ x y, decimalOfText U (removeChar ',' s) = some (.finite x) ∧
    decimalOfText U (replaceChar ',' '.' s) = some (.finite y) ∧
      let c := Decimal.defaultContext
      ((10 : ℚ) ^ (c.emax + 1) ≤ |c.round (-x)| ∧ (10 : ℚ) ^ (c.emax + 1) ≤ |c.round (-y)|) ∨
        (c.round (-x) = 0 ∧ c.round (-y) = 0)

/-- **The comma does not matter**: no number is written without it and none with a point, or it has
no decimals, or they are decimals of zero, or the context cannot negate the numbers exactly. -/
def CommaIdle (U : CharClass) (s : List Char) (negative : Bool) : Prop :=
  (Accepted U (removeChar ',' s) negative ↔ Accepted U (replaceChar ',' '.' s) negative) ∧
    (Accepted U (replaceChar ',' '.' s) negative →
      fractionDigits U s = [] ∨ (∀ d ∈ mantissaDigits U s, d = 0) ∨
        (negative = true ∧ BeyondRange U s))

/-- The negation of a number is a number, or too large. -/
theorem signedDecimal_finite {q : ℚ} (h : decimalOfText U t = some (.finite q)) :
    signedDecimal U t false = .ok (some (.finite q)) ∧ signedDecimal U t true =
      if |Decimal.defaultContext.round (-q)| < (10 : ℚ) ^ (Decimal.defaultContext.emax + 1) then
        .ok (some (.finite (Decimal.defaultContext.round (-q))))
      else .error .overflow := by
  rw [signedDecimal, signedDecimal, h]
  refine ⟨rfl, ?_⟩
  simp only [if_true, PyDecimal.neg, PyDecimal.ofExact]
  by_cases hlt : |Decimal.defaultContext.round (-q)| <
      (10 : ℚ) ^ (Decimal.defaultContext.emax + 1)
  · rw [if_pos hlt, if_pos hlt]
  · rw [if_neg hlt, if_neg hlt]

theorem accepted_iff {negative : Bool} :
    Accepted U s negative ↔ signedDecimal U s negative ≠ .ok none := by
  cases hv : decimalOfText U s with
  | none => simp [Accepted, signedDecimal, hv]
  | some v =>
    cases v with
    | finite q =>
      obtain ⟨hfalse, htrue⟩ := signedDecimal_finite hv
      refine iff_of_true (by rw [Accepted, hv]; simp) ?_
      cases negative with
      | false => simp [hfalse]
      | true =>
        rw [htrue]
        split <;> simp
    | infinite b => cases negative <;> simp [Accepted, signedDecimal, hv, PyDecimal.neg]
    | nan signaling =>
      cases negative <;> cases signaling <;> simp [Accepted, signedDecimal, hv, PyDecimal.neg]

/-- Digits write zero if all of them are. -/
theorem ofDigitList_eq_zero {l : List ℕ} : ofDigitList l = 0 ↔ ∀ d ∈ l, d = 0 := by
  have hfold : ∀ n : ℕ, l.foldl (fun n d => 10 * n + d) n = 0 ↔ n = 0 ∧ ∀ d ∈ l, d = 0 := by
    induction l with
    | nil => simp
    | cons d l ih =>
      intro n
      rw [List.foldl_cons, ih]
      simp only [List.mem_cons, forall_eq_or_imp]
      constructor
      · rintro ⟨hn, hl⟩
        exact ⟨by omega, by omega, hl⟩
      · rintro ⟨hn, hd, hl⟩
        exact ⟨by omega, hl⟩
  rw [ofDigitList, hfold, and_iff_right rfl]

/-- A scaled number, and the one without the scale. -/
theorem scaledNumber_eq_some {digits : List ℕ} {rest : List Char} {places : ℕ} {q : ℚ}
    (h : scaledNumber U digits rest places = some q) : ∃ e : ℤ,
      q = ofDigitList digits * (10 : ℚ) ^ (e - places) ∧
        ∀ x, scaledNumber U digits rest 0 = some x → x = ofDigitList digits * (10 : ℚ) ^ e := by
  rw [scaledNumber] at h
  split at h
  · cases h
  · rename_i hne
    obtain ⟨e, he, h⟩ := Option.bind_eq_some_iff.mp h
    simp only at h
    split at h
    · cases h
    · refine ⟨e, (Option.some.inj h).symm, fun x hx => ?_⟩
      rw [scaledNumber, if_neg hne, he, Option.bind_some] at hx
      simp only at hx
      split at hx
      · cases hx
      · rw [← Option.some.inj hx, Nat.cast_zero, sub_zero]

/-- Without decimals, or with digits of zero, the comma says nothing. -/
theorem scaledNumber_congr {digits : List ℕ} {rest : List Char} {places : ℕ} {q : ℚ}
    (h : scaledNumber U digits rest places = some q)
    (hidle : places = 0 ∨ ofDigitList digits = 0) : scaledNumber U digits rest 0 = some q := by
  obtain rfl | hzero := hidle
  · exact h
  · rw [scaledNumber] at h ⊢
    split at h
    · cases h
    · rename_i hne
      obtain ⟨e, he, h⟩ := Option.bind_eq_some_iff.mp h
      rw [if_neg hne, he, Option.bind_some]
      simpa [hzero] using h

/-- The size of a number does not depend on its sign. -/
theorem abs_signedBy (sg : Bool) (q : ℚ) : |signedBy sg q| = |q| := by
  cases sg
  · rfl
  · exact abs_neg q

theorem signedBy_inj {sg : Bool} {x y : ℚ} : signedBy sg x = signedBy sg y ↔ x = y := by
  cases sg
  · exact Iff.rfl
  · exact neg_inj

/-- Decimals make a number smaller by a power of ten. -/
theorem three_mul_lt_of_decimals {n places : ℕ} {e : ℤ} (hn : n ≠ 0) (hplaces : places ≠ 0) :
    3 * |(n : ℚ) * (10 : ℚ) ^ (e - places)| < |(n : ℚ) * (10 : ℚ) ^ e| := by
  have hpow : (0 : ℚ) < (10 : ℚ) ^ (e - places) := zpow_pos (by norm_num) _
  have hsize : (0 : ℚ) < n * (10 : ℚ) ^ (e - places) :=
    mul_pos (by exact_mod_cast Nat.pos_of_ne_zero hn) hpow
  have hten : (10 : ℚ) ≤ 10 ^ places := by
    exact_mod_cast Nat.le_self_pow hplaces 10
  have hsplit : (n : ℚ) * (10 : ℚ) ^ e = n * (10 : ℚ) ^ (e - places) * 10 ^ places := by
    rw [mul_assoc, ← zpow_natCast, ← zpow_add₀ (by norm_num), sub_add_cancel]
  rw [hsplit, abs_of_pos (mul_pos hsize (by positivity)), abs_of_pos hsize]
  nlinarith

/-- **When the comma does not matter** to the number of a text that has one alone. -/
theorem signedDecimal_loneComma_iff (hU : U.KnowsAscii) (hs : ∀ c ∈ s, U.space c = false)
    (h : LoneComma s) {negative : Bool} :
    signedDecimal U (removeChar ',' s) negative = signedDecimal U (replaceChar ',' '.' s) negative ↔
      CommaIdle U s negative := by
  rw [CommaIdle, accepted_iff, accepted_iff]
  cases hv : decimalOfText U (replaceChar ',' '.' s) with
  | none =>
    have hnone : signedDecimal U (replaceChar ',' '.' s) negative = .ok none := by
      rw [signedDecimal, hv]
    simp [hnone]
  | some v =>
    obtain ⟨sg, rest, q, rfl, hq, hdropped⟩ := decimal_of_pointed hU hs h hv
    obtain ⟨e, hqe, hxe⟩ := scaledNumber_eq_some hq
    have hpointed : signedDecimal U (replaceChar ',' '.' s) negative ≠ .ok none :=
      accepted_iff.mp (by rw [Accepted, hv]; simp)
    cases hx : scaledNumber U (mantissaDigits U s) rest 0 with
    | none =>
      rw [hx] at hdropped
      have hnone : signedDecimal U (removeChar ',' s) negative = .ok none := by
        rw [signedDecimal, hdropped]
        rfl
      rw [hnone]
      simp [hpointed, hpointed.symm]
    | some x =>
      rw [hx] at hdropped
      have hxe := hxe x hx
      have hdropped : decimalOfText U (removeChar ',' s) = some (.finite (signedBy sg x)) :=
        hdropped
      have haccepted : signedDecimal U (removeChar ',' s) negative ≠ .ok none :=
        accepted_iff.mp (by rw [Accepted, hdropped]; simp)
      have hidle : (fractionDigits U s = [] ∨ ∀ d ∈ mantissaDigits U s, d = 0) → q = x := by
        intro hidle
        have hsame := scaledNumber_congr hq
          (hidle.imp List.length_eq_zero_iff.mpr ofDigitList_eq_zero.mpr)
        exact Option.some.inj (hsame.symm.trans hx)
      have hfar : ¬ (fractionDigits U s = [] ∨ ∀ d ∈ mantissaDigits U s, d = 0) →
          3 * |q| < |x| := by
        intro hnot
        rw [not_or, ← List.length_eq_zero_iff, ← ofDigitList_eq_zero] at hnot
        rw [hqe, hxe]
        exact three_mul_lt_of_decimals hnot.2 hnot.1
      simp only [ne_eq, hpointed, haccepted, not_false_eq_true, iff_self, true_and, true_imp_iff]
      obtain ⟨hxpos, hxneg⟩ := signedDecimal_finite hdropped
      obtain ⟨hqpos, hqneg⟩ := signedDecimal_finite hv
      by_cases hcase : fractionDigits U s = [] ∨ ∀ d ∈ mantissaDigits U s, d = 0
      · refine iff_of_true ?_ (hcase.elim .inl fun h => .inr (.inl h))
        rw [signedDecimal, signedDecimal, hdropped, hv, hidle hcase]
      · have hlt := hfar hcase
        rw [← or_assoc, or_iff_right hcase]
        cases negative with
        | false =>
          rw [hxpos, hqpos]
          refine iff_of_false (fun heq => ?_) (fun h => Bool.false_ne_true h.1)
          have hxq : x = q := by simpa [signedBy_inj] using heq
          rw [hxq] at hlt
          linarith [abs_nonneg q]
        | true =>
          rw [hxneg, hqneg, and_iff_right rfl]
          constructor
          · intro heq
            refine ⟨_, _, hdropped, hv, ?_⟩
            split at heq
            · split at heq
              · rename_i hxr hqr
                have hround : Decimal.defaultContext.round (-signedBy sg x) =
                    Decimal.defaultContext.round (-signedBy sg q) := by simpa using heq
                have hzero := Decimal.defaultContext.round_eq_zero_of_far hround
                  (by rwa [abs_neg, abs_neg, abs_signedBy, abs_signedBy])
                exact .inr ⟨hround.trans hzero, hzero⟩
              · cases heq
            · split at heq
              · cases heq
              · rename_i hxr hqr
                exact .inl ⟨not_lt.mp hxr, not_lt.mp hqr⟩
          · rintro ⟨x', y', hx', hy', hout⟩
            rw [hdropped] at hx'
            rw [hv] at hy'
            obtain rfl : signedBy sg x = x' := by simpa using hx'
            obtain rfl : signedBy sg q = y' := by simpa using hy'
            obtain ⟨hbig, hbig'⟩ | ⟨hsmall, hsmall'⟩ := hout
            · rw [if_neg (not_lt.mpr hbig), if_neg (not_lt.mpr hbig')]
            · rw [hsmall, hsmall']

end Readings

/-! ## The two locales -/

namespace NormalizationService

variable {U : CharClass} {T : TextCase} {raw : List Char} {tr en : String}

/-- A Turkish hint reads a text like an English hint reads its mirror image: the same value,
percentage flag and warnings, or the same exception. -/
def ReadAlike (U : CharClass) (T : TextCase) (raw : List Char) (tr en : String) : Prop :=
  parseFinancialDecimal U T raw (some tr) = parseFinancialDecimal U T (mirrorText raw) (some en)

/-- **What the two locales agree on**: the text is filtered out, or what stands within its sign has
no lone comma, or one that does not matter. -/
def LocalesAgree (U : CharClass) (T : TextCase) (raw : List Char) : Prop :=
  let (negative, body) := takeNegative U (bare U raw)
  Filtered U T raw ∨ ¬ LoneComma body ∨ CommaIdle U body negative

end NormalizationService

end FinanceIntelligence
