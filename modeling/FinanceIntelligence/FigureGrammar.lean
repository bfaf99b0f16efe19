import FinanceIntelligence.NumberParsing
import Mathlib.Data.List.TakeWhile
import Mathlib.Data.Nat.Log
import Mathlib.Tactic.NormNum

/-!
# What is read as a figure

`parse_financial_decimal` hands what its filters, the sign and the separator rules
leave of a text to `Decimal`, which reads more than figures: signs, underscores,
exponents, digits of every script. And the separator rules remove separators
wherever they stand, so that a date is read as a number.

* `IsPrintedFigure` — **what a figure looks like**: a negation around ASCII digits
  in groups of three, with decimals after the other separator.
* `signedDecimal_plain` — a text of digits and points is read exactly if it holds a
  digit and no second point.
* `readsOnlyNumbers_iff` — **the texts on which the parser reads only numbers**.
-/

namespace FinanceIntelligence

/-- The classification is right on ASCII characters. -/
structure CharClass.KnowsAscii (U : CharClass) : Prop where
  /-- the digits -/
  digit_eq : ∀ c : Char, c.toNat < 128 → U.digit c = CharClass.ascii.digit c
  /-- the blanks -/
  space_eq : ∀ c : Char, c.toNat < 128 → U.space c = CharClass.ascii.space c

theorem CharClass.knowsAscii_ascii : CharClass.ascii.KnowsAscii := ⟨fun _ _ => rfl, fun _ _ => rfl⟩

variable {U : CharClass} {T : TextCase} {s t : List Char}

/-- A text without blanks is not stripped. -/
theorem strip_of_forall (h : ∀ c ∈ s, U.space c = false) : strip U s = s := by
  have hdrop : ∀ l : List Char, (∀ c ∈ l, U.space c = false) → l.dropWhile U.space = l := by
    intro l hl
    cases l with
    | nil => rfl
    | cons c l => rw [List.dropWhile_cons_of_neg (by simp [hl c (List.mem_cons_self ..)])]
  rw [strip, hdrop s h, hdrop s.reverse (fun c hc => h c (List.mem_reverse.mp hc)),
    List.reverse_reverse]

/-- Whoever drops the blanks need not strip first. -/
theorem filter_strip {p : Char → Bool} (hp : ∀ c, U.space c = true → p c = false) :
    (strip U s).filter p = s.filter p := by
  have hdrop : ∀ l : List Char, (l.dropWhile U.space).filter p = l.filter p := by
    intro l
    induction l with
    | nil => rfl
    | cons c l ih =>
      by_cases hc : U.space c = true
      · rw [List.dropWhile_cons_of_pos hc, List.filter_cons_of_neg (by simp [hp c hc]), ih]
      · rw [List.dropWhile_cons_of_neg hc]
  rw [strip, List.filter_reverse, hdrop, ← List.filter_reverse, List.reverse_reverse, hdrop]

/-- Stripping drops nothing but blanks. -/
theorem mem_strip {c : Char} (hc : U.space c = false) (h : c ∈ s) :
    c ∈ strip U s := by
  have hfilter : (strip U s).filter (fun c => !U.space c) = s.filter fun c => !U.space c :=
    filter_strip fun c hc => by simp [hc]
  have hmem : c ∈ s.filter fun c => !U.space c := List.mem_filter.mpr ⟨h, by simp [hc]⟩
  exact List.mem_of_mem_filter (hfilter ▸ hmem)

/-! ## Digits and points -/

/-- A digit or a point. -/
def digitOrPoint (c : Char) : Bool := c.isDigit || c == '.'

/-- Digits lie side by side. -/
theorem toNat_of_isDigit {c : Char} (h : c.isDigit = true) : 48 ≤ c.toNat ∧ c.toNat ≤ 57 :=
  Char.isDigit_iff_toNat.mp h

theorem digitOrPoint_cases {c : Char} (h : digitOrPoint c = true) : c.isDigit = true ∨ c = '.' := by
  simpa [digitOrPoint] using h

theorem toLower_digitOrPoint {c : Char} (h : digitOrPoint c = true) : c.toLower = c := by
  rcases digitOrPoint_cases h with hd | rfl
  · refine dif_neg fun hupper => ?_
    have hlt := (toNat_of_isDigit hd).2
    have hge : 65 ≤ c.toNat := UInt32.le_iff_toNat_le.mp hupper.1
    omega
  · rfl

namespace CharClass.KnowsAscii

theorem digit_isDigit (h : U.KnowsAscii) {c : Char} (hc : c.isDigit = true) :
    U.digit c = some (c.toNat - '0'.toNat) := by
  have hlt := toNat_of_isDigit hc
  exact (h.digit_eq c (by omega)).trans (if_pos hc)

theorem digit_point (h : U.KnowsAscii) : U.digit '.' = none := h.digit_eq '.' (by decide)

theorem space_digitOrPoint (h : U.KnowsAscii) {c : Char} (hc : digitOrPoint c = true) :
    U.space c = false := by
  rcases digitOrPoint_cases hc with hd | rfl
  · have hlt := toNat_of_isDigit hd
    have hne : c ≠ ' ' := by
      rintro rfl
      exact absurd hlt.1 (by decide)
    rw [h.space_eq c (by omega)]
    simp only [CharClass.ascii, Bool.or_eq_false_iff, Bool.and_eq_false_iff, beq_eq_false_iff_ne,
      decide_eq_false_iff_not]
    exact ⟨⟨hne, .inr (by omega)⟩, .inr (by omega)⟩
  · exact h.space_eq '.' (by decide)

end CharClass.KnowsAscii

section Digits

variable (hU : U.KnowsAscii) {ds rest : List Char}

include hU

/-- The digits at the front are taken up to the first character that is none. -/
theorem takeDigits_append (hds : ∀ c ∈ ds, c.isDigit = true)
    (hrest : ∀ c ∈ rest.head?, U.digit c = none) :
    takeDigits U (ds ++ rest) = (ds.map fun c => c.toNat - '0'.toNat, rest) := by
  induction ds with
  | nil =>
    cases rest with
    | nil => rfl
    | cons c cs => rw [List.nil_append, takeDigits, hrest c rfl, List.map_nil]
  | cons c ds ih =>
    rw [List.cons_append, takeDigits, hU.digit_isDigit (hds c (List.mem_cons_self ..))]
    simp only [ih fun c hc => hds c (List.mem_cons_of_mem _ hc), List.map_cons]

omit hU in
/-- The number that digits write is the one they write in any program. -/
theorem ofDigitList_map (ds : List Char) :
    ofDigitList (ds.map fun c => c.toNat - '0'.toNat) = Nat.ofDigitChars 10 ds 0 := by
  rw [ofDigitList, List.foldl_map, Nat.ofDigitChars_eq_foldl]

omit hU in
theorem ofDigitChars_lt (hds : ∀ c ∈ ds, c.isDigit = true) :
    Nat.ofDigitChars 10 ds 0 < 10 ^ ds.length := by
  induction ds with
  | nil => simp
  | cons c ds ih =>
    have hc : c.toNat - '0'.toNat ≤ 9 := by
      have hle := (toNat_of_isDigit (hds c (List.mem_cons_self ..))).2
      have hzero : '0'.toNat = 48 := by decide
      omega
    have ih := ih fun c hc => hds c (List.mem_cons_of_mem _ hc)
    rw [Nat.ofDigitChars_cons, Nat.mul_zero, Nat.zero_add, Nat.ofDigitChars_eq_ofDigitChars_zero,
      List.length_cons, Nat.pow_succ]
    have hmul := Nat.mul_le_mul_left (10 ^ ds.length) hc
    omega

/-- Digits with a point between them, few enough for every context. -/
theorem numberOf_point {w f : List Char} (hw : ∀ c ∈ w, c.isDigit = true)
    (hf : ∀ c ∈ f, c.isDigit = true) (hne : w ++ f ≠ []) (hlen : (w ++ f).length ≤ 28) :
    numberOf U (w ++ '.' :: f) = some ((Nat.ofDigitChars 10 (w ++ f) 0 : ℚ) / 10 ^ f.length) := by
  have hwhole := takeDigits_append hU hw (show ∀ c ∈ ('.' :: f).head?, U.digit c = none by
    simpa using hU.digit_point)
  have hfraction := takeDigits_append hU hf (show ∀ c ∈ [].head?, U.digit c = none by simp)
  rw [List.append_nil] at hfraction
  simp only [numberOf, hwhole, hfraction, ← List.map_append, ofDigitList_map,
    List.map_eq_nil_iff, if_neg hne, exponentOf, Option.bind_some, zero_sub, List.length_map]
  set n := Nat.ofDigitChars 10 (w ++ f) 0 with hn
  have hlt : n < 10 ^ 28 := by
    refine (ofDigitChars_lt ?_).trans_le (Nat.pow_le_pow_right (by omega) hlen)
    intro c hc
    rcases List.mem_append.mp hc with hc | hc
    · exact hw c hc
    · exact hf c hc
  have hlog : Nat.log 10 n < 28 := Nat.log_lt_of_lt_pow' (by omega) hlt
  have hflen : f.length ≤ 28 := by
    rw [List.length_append] at hlen
    omega
  rw [if_neg, zpow_neg, zpow_natCast, div_eq_mul_inv]
  simp only [maxEmax]
  omega

/-- Digits alone, few enough for every context. -/
theorem numberOf_digits (hds : ∀ c ∈ ds, c.isDigit = true) (hne : ds ≠ [])
    (hlen : ds.length ≤ 28) : numberOf U ds = some (Nat.ofDigitChars 10 ds 0 : ℚ) := by
  have hwhole := takeDigits_append hU hds (show ∀ c ∈ [].head?, U.digit c = none by simp)
  rw [List.append_nil] at hwhole
  have hlt : Nat.ofDigitChars 10 ds 0 < 10 ^ 28 :=
    (ofDigitChars_lt hds).trans_le (Nat.pow_le_pow_right (by omega) hlen)
  have hlog : Nat.log 10 (Nat.ofDigitChars 10 ds 0) < 28 := Nat.log_lt_of_lt_pow' (by omega) hlt
  simp only [numberOf, hwhole, List.append_nil, ofDigitList_map, List.map_eq_nil_iff, if_neg hne,
    exponentOf, Option.bind_some, List.length_nil]
  rw [if_neg]
  · simp
  · simp only [maxEmax]
    omega

/-- A second point ends no number. -/
theorem numberOf_points {w f : List Char} (hw : ∀ c ∈ w, c.isDigit = true)
    (hf : ∀ c ∈ f, c.isDigit = true) : numberOf U (w ++ '.' :: (f ++ '.' :: rest)) = none := by
  have hpoint : ∀ l : List Char, ∀ c ∈ ('.' :: l).head?, U.digit c = none := fun l => by
    simpa using hU.digit_point
  have hwhole := takeDigits_append hU hw (hpoint (f ++ '.' :: rest))
  have hfraction := takeDigits_append hU hf (hpoint rest)
  have hexponent : exponentOf U ('.' :: rest) = none := by simp [exponentOf]
  simp only [numberOf, hwhole, hfraction, hexponent, Option.bind_none, ite_self]

omit hU in
/-- No special value is written with digits and points. -/
theorem specialOf_plain (ht : ∀ c ∈ t, digitOrPoint c = true) (b : Bool) :
    specialOf U b t = none := by
  have hlower : t.map Char.toLower = t :=
    (List.map_congr_left fun c hc => toLower_digitOrPoint (ht c hc)).trans (List.map_id' t)
  -- every special value starts with a letter
  have hhead : ∀ (v : String) (n : ℕ), v.toList.head?.any digitOrPoint = false →
      v.toList ≠ [] → t.take n ≠ v.toList := by
    intro v n hv hne h
    cases hl : v.toList with
    | nil => exact hne hl
    | cons c w =>
      have hmem : c ∈ t := List.mem_of_mem_take (h.trans hl ▸ List.mem_cons_self ..)
      rw [hl, List.head?_cons, Option.any_some, ht c hmem] at hv
      cases hv
  have hwhole : ∀ v : String, v.toList.head?.any digitOrPoint = false → v.toList ≠ [] →
      t ≠ v.toList := by
    intro v hv hne h
    refine hhead v t.length hv hne ?_
    rwa [List.take_length]
  simp only [specialOf, hlower]
  rw [if_neg (not_or.mpr ⟨hwhole _ (by decide) (by decide), hwhole _ (by decide) (by decide)⟩),
    if_neg fun h => hhead _ 3 (by decide) (by decide) h.1,
    if_neg fun h => hhead _ 4 (by decide) (by decide) h.1]

/-- Digits and points are read as a number or not at all. -/
theorem decimalOfText_plain (ht : ∀ c ∈ t, digitOrPoint c = true) :
    decimalOfText U t = (numberOf U t).map .finite := by
  have hstrip : strip U t = t := strip_of_forall fun c hc => hU.space_digitOrPoint (ht c hc)
  have hline : t.filter (· != '_') = t := by
    refine List.filter_eq_self.mpr fun c hc => ?_
    rcases digitOrPoint_cases (ht c hc) with h | rfl
    · refine bne_iff_ne.mpr ?_
      rintro rfl
      cases h
    · decide
  have hsign : takeSign t = (false, t) := by
    cases t with
    | nil => rfl
    | cons c t =>
      have hc := ht c (List.mem_cons_self ..)
      rw [takeSign]
      · rintro _ ⟨⟩
        cases hc
      · rintro _ ⟨⟩
        cases hc
  simp only [decimalOfText, hstrip, hline, hsign, Bool.false_eq_true, if_false,
    specialOf_plain ht]
  cases numberOf U t <;> rfl

omit hU in
/-- A text of digits and points: its digits up to the first point, then those up to
the second. -/
theorem digitOrPoint_parts (ht : ∀ c ∈ t, digitOrPoint c = true) :
    ∃ w r, t = w ++ r ∧ (∀ c ∈ w, c.isDigit = true) ∧ (r = [] ∨ ∃ r', r = '.' :: r') := by
  refine ⟨t.takeWhile Char.isDigit, t.dropWhile Char.isDigit, List.takeWhile_append_dropWhile.symm,
    fun c hc => List.mem_takeWhile_imp hc, ?_⟩
  cases hr : t.dropWhile Char.isDigit with
  | nil => exact .inl rfl
  | cons c r' =>
    have hmem : c ∈ t := (List.dropWhile_suffix _).subset (hr ▸ List.mem_cons_self ..)
    have hnot := List.head?_dropWhile_not Char.isDigit t
    rw [hr, List.head?_cons] at hnot
    rcases digitOrPoint_cases (ht c hmem) with h | rfl
    · exact absurd h (Bool.eq_false_iff.mp hnot)
    · exact .inr ⟨r', rfl⟩

/-- The sign of what digits write. -/
def signedBy (negative : Bool) (q : ℚ) : ℚ := if negative then -q else q

open NormalizationService in
omit hU in
/-- Few digits are negated exactly. -/
theorem signedDecimal_of_digits {n k : ℕ} {negative : Bool} (hn : n < 10 ^ 28) (hk : k ≤ 28)
    (h : decimalOfText U t = some (.finite ((n : ℚ) / 10 ^ k))) :
    signedDecimal U t negative = .ok (some (.finite (signedBy negative ((n : ℚ) / 10 ^ k)))) := by
  rw [signedDecimal, h]
  cases negative with
  | false => rfl
  | true =>
    have hneg : PyDecimal.ofExact Decimal.defaultContext (((-n : ℤ) : ℚ) * 10 ^ (-k : ℤ)) =
        .ok (.finite (((-n : ℤ) : ℚ) * 10 ^ (-k : ℤ))) := by
      refine PyDecimal.ofExact_of_digits ?_ ?_ ?_
      · rw [abs_neg, Nat.abs_cast]
        exact_mod_cast hn
      · simp only [Decimal.Context.etiny, Decimal.defaultContext]
        omega
      · simp only [Decimal.defaultContext]
        omega
    have heq : ((-n : ℤ) : ℚ) * 10 ^ (-k : ℤ) = -((n : ℚ) / 10 ^ k) := by
      rw [Int.cast_neg, Int.cast_natCast, zpow_neg, zpow_natCast, neg_mul, div_eq_mul_inv]
    rw [heq] at hneg
    simp only [PyDecimal.neg, hneg, signedBy, if_true]

section Signed

open NormalizationService

/-- **Digits alone** are read as their number. -/
theorem signedDecimal_digits (hds : ∀ c ∈ ds, c.isDigit = true) (hne : ds ≠ [])
    (hlen : ds.length ≤ 28) (negative : Bool) : signedDecimal U ds negative =
      .ok (some (.finite (signedBy negative (Nat.ofDigitChars 10 ds 0 / 10 ^ 0)))) := by
  have hplain : ∀ c ∈ ds, digitOrPoint c = true := fun c hc => by simp [digitOrPoint, hds c hc]
  refine signedDecimal_of_digits
    ((ofDigitChars_lt hds).trans_le (Nat.pow_le_pow_right (by omega) hlen)) (Nat.zero_le _) ?_
  rw [decimalOfText_plain hU hplain, numberOf_digits hU hds hne hlen, pow_zero, div_one]
  rfl

/-- **Digits with a point** are read as their decimal fraction. -/
theorem signedDecimal_point {w f : List Char} (hw : ∀ c ∈ w, c.isDigit = true)
    (hf : ∀ c ∈ f, c.isDigit = true) (hne : w ++ f ≠ []) (hlen : (w ++ f).length ≤ 28)
    (negative : Bool) : signedDecimal U (w ++ '.' :: f) negative =
      .ok (some (.finite (signedBy negative (Nat.ofDigitChars 10 (w ++ f) 0 / 10 ^ f.length)))) := by
  have hdigits : ∀ c ∈ w ++ f, c.isDigit = true := fun c hc =>
    (List.mem_append.mp hc).elim (hw c) (hf c)
  have hplain : ∀ c ∈ w ++ '.' :: f, digitOrPoint c = true := by
    intro c hc
    rcases List.mem_append.mp hc with hc | hc
    · simp [digitOrPoint, hw c hc]
    · rcases List.mem_cons.mp hc with rfl | hc
      · rfl
      · simp [digitOrPoint, hf c hc]
  refine signedDecimal_of_digits
    ((ofDigitChars_lt hdigits).trans_le (Nat.pow_le_pow_right (by omega) hlen))
    ((List.length_append ▸ hlen : w.length + f.length ≤ 28).trans' (Nat.le_add_left ..)) ?_
  rw [decimalOfText_plain hU hplain, numberOf_point hU hw hf hne hlen]
  rfl

/-- What digits and points are read as is a number. -/
theorem finite_of_signedDecimal (ht : ∀ c ∈ t, digitOrPoint c = true) {negative : Bool}
    {v : PyDecimal} (h : signedDecimal U t negative = .ok (some v)) : ∃ q, v = .finite q := by
  rw [signedDecimal, decimalOfText_plain hU ht] at h
  cases hn : numberOf U t with
  | none =>
    rw [hn] at h
    cases h
  | some q =>
    rw [hn] at h
    cases negative with
    | false =>
      cases h
      exact ⟨q, rfl⟩
    | true =>
      simp only [Option.map_some, if_true, PyDecimal.neg, PyDecimal.ofExact] at h
      split at h
      · rename_i hneg
        cases h
        split at hneg
        · cases hneg
          exact ⟨_, rfl⟩
        · cases hneg
      · cases h
      · cases h

/-- **Digits and points are read** exactly if there is a digit and no second point. -/
theorem signedDecimal_plain (ht : ∀ c ∈ t, digitOrPoint c = true)
    (hlen : (t.filter Char.isDigit).length ≤ 28) (negative : Bool) :
    (∃ v, signedDecimal U t negative = .ok (some v)) ↔
      (∃ c ∈ t, c.isDigit = true) ∧ t.count '.' ≤ 1 := by
  have hpoint : ∀ l : List Char, (∀ c ∈ l, c.isDigit = true) → l.count '.' = 0 := by
    intro l hl
    refine List.count_eq_zero.mpr fun hmem => ?_
    cases hl '.' hmem
  have hunread : numberOf U t = none → ¬ ∃ v, signedDecimal U t negative = .ok (some v) := by
    rintro hnone ⟨v, hv⟩
    rw [signedDecimal, decimalOfText_plain hU ht, hnone] at hv
    cases hv
  obtain ⟨w, r, rfl, hw, rfl | ⟨r, rfl⟩⟩ := digitOrPoint_parts ht
  · -- no point
    rw [List.append_nil, List.filter_eq_self.mpr hw] at hlen
    rw [List.append_nil] at hunread ⊢
    cases w with
    | nil => exact iff_of_false (hunread rfl) (by simp)
    | cons c w =>
      exact iff_of_true ⟨_, signedDecimal_digits hU hw nofun hlen negative⟩
        ⟨⟨c, List.mem_cons_self .., hw c (List.mem_cons_self ..)⟩, by rw [hpoint _ hw]; omega⟩
  have hr : ∀ c ∈ r, digitOrPoint c = true := fun c hc =>
    ht c (List.mem_append_right _ (List.mem_cons_of_mem _ hc))
  obtain ⟨f, r, rfl, hf, rfl | ⟨r, rfl⟩⟩ := digitOrPoint_parts hr
  · -- one point
    rw [List.append_nil] at hlen hunread ⊢
    have hcount : (w ++ '.' :: f).count '.' = 1 := by
      rw [List.count_append, List.count_cons_self, hpoint w hw, hpoint f hf]
    by_cases hne : w ++ f = []
    · obtain ⟨rfl, rfl⟩ := List.append_eq_nil_iff.mp hne
      refine iff_of_false (hunread ?_) fun ⟨⟨c, hc, hd⟩, _⟩ => ?_
      · simp [numberOf, takeDigits, hU.digit_point]
      · obtain rfl := List.mem_singleton.mp hc
        cases hd
    · obtain ⟨c, l, hcons⟩ := List.exists_cons_of_ne_nil hne
      have hmem : c ∈ w ++ f := hcons ▸ List.mem_cons_self ..
      have hdigit : c ∈ w ++ '.' :: f ∧ c.isDigit = true := by
        rcases List.mem_append.mp hmem with hc | hc
        · exact ⟨List.mem_append_left _ hc, hw c hc⟩
        · exact ⟨List.mem_append_right _ (List.mem_cons_of_mem _ hc), hf c hc⟩
      refine iff_of_true ⟨_, signedDecimal_point hU hw hf hne ?_ negative⟩ ⟨⟨c, hdigit⟩, hcount.le⟩
      rwa [List.filter_append, List.filter_cons_of_neg (by decide), ← List.filter_append,
        List.filter_eq_self.mpr fun c hc => (List.mem_append.mp hc).elim (hw c) (hf c)] at hlen
  · -- a second point
    refine iff_of_false (hunread (numberOf_points hU hw hf)) fun ⟨_, hcount⟩ => ?_
    rw [List.count_append, List.count_cons_self, List.count_append, List.count_cons_self] at hcount
    omega

end Signed

end Digits

/-! ## Figures -/

/-- An ASCII digit or a separator. -/
def figureChar (c : Char) : Bool := c.isDigit || c == '.' || c == ','

/-- Every group of digits but the first has three. -/
def Grouped (g : Char) (s : List Char) : Prop := ∀ x ∈ (s.splitOn g).tail, x.length = 3

/-- Digits with `g` between their groups and `d` before the decimals. -/
def FigureWith (g d : Char) (s : List Char) : Prop :=
  match s.splitOn d with
  | [whole] => Grouped g whole
  | [whole, decimals] => Grouped g whole ∧ g ∉ decimals
  | _ => False

/-- ASCII digits with group and decimal separators. -/
def IsFigure (s : List Char) : Prop :=
  s.all figureChar = true ∧ s.any Char.isDigit = true ∧
    (FigureWith '.' ',' s ∨ FigureWith ',' '.' s)

/-- **A figure**, in parentheses, after a minus or alone. -/
def IsPrintedFigure (s : List Char) : Prop :=
  IsFigure s ∨ (∃ body, s = '-' :: body ∧ IsFigure body) ∨
    ∃ body, s = '(' :: (body ++ [')']) ∧ IsFigure body

instance (g : Char) (s : List Char) : Decidable (Grouped g s) :=
  inferInstanceAs (Decidable (∀ x ∈ (s.splitOn g).tail, x.length = 3))

instance (g d : Char) (s : List Char) : Decidable (FigureWith g d s) := by
  unfold FigureWith
  split <;> infer_instance

instance (s : List Char) : Decidable (IsFigure s) := inferInstanceAs (Decidable (_ ∧ _ ∧ _))

theorem IsFigure.figureChar (h : IsFigure s) : ∀ c ∈ s, figureChar c = true :=
  List.all_eq_true.mp h.1

/-- Separators of both kinds, the last of which occurs before. -/
def RepeatsLast (s : List Char) : Prop :=
  '.' ∈ s ∧ ',' ∈ s ∧ 2 ≤ s.count (if rfind ',' s < rfind '.' s then '.' else ',')

instance (s : List Char) : Decidable (RepeatsLast s) := inferInstanceAs (Decidable (_ ∧ _ ∧ _))

theorem length_splitOn (x : Char) (s : List Char) : (s.splitOn x).length = s.count x + 1 := by
  induction s with
  | nil => rfl
  | cons c s ih =>
    rw [List.splitOn_cons_eq_if_modifyHead]
    by_cases h : c = x
    · subst h
      rw [if_pos (beq_self_eq_true c), List.length_cons, ih, List.count_cons_self]
    · rw [if_neg (by simpa using h), List.length_modifyHead, ih, List.count_cons_of_ne h]

section Replacing

variable {x y : Char}

theorem filter_removeChar (hx : x.isDigit = false) :
    (removeChar x s).filter Char.isDigit = s.filter Char.isDigit := by
  rw [removeChar, List.filter_filter]
  refine List.filter_congr fun c _ => ?_
  rw [Bool.and_eq_left_iff_imp]
  intro hc
  refine bne_iff_ne.mpr ?_
  rintro rfl
  rw [hx] at hc
  cases hc

theorem filter_replaceChar (hx : x.isDigit = false) (hy : y.isDigit = false) :
    (replaceChar x y s).filter Char.isDigit = s.filter Char.isDigit := by
  induction s with
  | nil => rfl
  | cons c s ih =>
    rw [replaceChar] at ih ⊢
    by_cases h : c = x
    · simp [h, hx, hy, ih]
    · simp [h, List.filter_cons, ih]

theorem count_removeChar_self : (removeChar x s).count x = 0 := by
  simp [removeChar, List.count_eq_zero]

theorem count_removeChar (h : x ≠ y) : (removeChar x s).count y = s.count y := by
  rw [removeChar, List.count_filter (by simpa using h.symm)]

theorem count_replaceChar (hy : y ∉ s) : (replaceChar x y s).count y = s.count x := by
  induction s with
  | nil => rfl
  | cons c s ih =>
    have hc : c ≠ y := fun h => hy (h ▸ List.mem_cons_self ..)
    have ih := ih fun h => hy (List.mem_cons_of_mem _ h)
    rw [replaceChar] at ih ⊢
    by_cases h : c = x
    · simp [h, ih]
    · simp [h, hc, ih]

end Replacing

namespace NormalizationService

/-- **What the separator rules leave** of digits and separators: the same digits,
points, and no second point unless both separators occur and the last does again. -/
theorem separators_spec (hs : ∀ c ∈ s, figureChar c = true) (localeHint : Option String) :
    (∀ c ∈ (separators s localeHint).1, digitOrPoint c = true) ∧
      (separators s localeHint).1.filter Char.isDigit = s.filter Char.isDigit ∧
      ((separators s localeHint).1.count '.' ≤ 1 ↔ ¬ RepeatsLast s) := by
  have hdot : ('.' : Char).isDigit = false := by decide
  have hcomma : (',' : Char).isDigit = false := by decide
  have hchar : ∀ c ∈ s, c ≠ ',' → digitOrPoint c = true := by
    intro c hc hne
    simpa [figureChar, digitOrPoint, hne] using hs c hc
  -- what is left without commas
  have hremoved : ∀ c ∈ removeChar ',' s, digitOrPoint c = true := fun c hc =>
    hchar c (List.mem_of_mem_filter hc) (by simpa using List.of_mem_filter hc)
  have hreplaced : ∀ l : List Char, (∀ c ∈ l, c ∈ s) →
      ∀ c ∈ replaceChar ',' '.' l, digitOrPoint c = true := by
    intro l hl c hc
    obtain ⟨d, hd, rfl⟩ := List.mem_map.mp hc
    by_cases h : d = ','
    · rw [if_pos h]
      rfl
    · rw [if_neg h]
      exact hchar d (hl d hd) h
  simp only [separators]
  split
  · rename_i hboth
    split
    · -- the point stands last
      rename_i hlast
      refine ⟨hremoved, filter_removeChar hcomma, ?_⟩
      simp only [count_removeChar (show ',' ≠ '.' by decide), RepeatsLast, if_pos hlast, hboth.1,
        hboth.2, true_and]
      omega
    · -- the comma stands last
      rename_i hlast
      refine ⟨hreplaced _ fun c => List.mem_of_mem_filter, ?_, ?_⟩
      · rw [filter_replaceChar hcomma hdot, filter_removeChar hdot]
      · simp only [count_replaceChar (show '.' ∉ removeChar '.' s by simp [removeChar]),
          count_removeChar (show '.' ≠ ',' by decide), RepeatsLast, if_neg hlast, hboth.1, hboth.2,
          true_and]
        omega
  · rename_i hboth
    have hnot : ¬ RepeatsLast s := fun h => hboth ⟨h.1, h.2.1⟩
    split
    · -- commas alone
      rename_i hmem
      have hno : '.' ∉ s := fun h => hboth ⟨h, hmem⟩
      have hcount : (removeChar ',' s).count '.' ≤ 1 := by
        rw [count_removeChar (by decide), List.count_eq_zero.mpr hno]
        omega
      split
      · rename_i hparts
        refine ⟨hreplaced s fun _ h => h, filter_replaceChar hcomma hdot, iff_of_true ?_ hnot⟩
        rw [length_splitOn] at hparts
        rw [count_replaceChar hno]
        omega
      · split
        · exact ⟨hremoved, filter_removeChar hcomma, iff_of_true hcount hnot⟩
        · split <;> exact ⟨hremoved, filter_removeChar hcomma, iff_of_true hcount hnot⟩
    · rename_i hno
      have hplain : ∀ c ∈ s, digitOrPoint c = true := fun c hc =>
        hchar c hc fun h => hno (h ▸ hc)
      have hcount : (removeChar '.' s).count '.' ≤ 1 := by
        rw [count_removeChar_self]
        omega
      have hcleared : ∀ c ∈ removeChar '.' s, digitOrPoint c = true := fun c hc =>
        hplain c (List.mem_of_mem_filter hc)
      split
      · -- points alone
        split
        · rename_i hparts
          rw [length_splitOn] at hparts
          exact ⟨hplain, rfl, iff_of_true (show s.count '.' ≤ 1 by omega) hnot⟩
        · split
          · exact ⟨hcleared, filter_removeChar hdot, iff_of_true hcount hnot⟩
          · rename_i hfew
            split
            · rw [length_splitOn] at hfew
              exact ⟨hplain, rfl, iff_of_true (show s.count '.' ≤ 1 by omega) hnot⟩
            · exact ⟨hcleared, filter_removeChar hdot, iff_of_true hcount hnot⟩
      · -- no separator
        rename_i hnone
        exact ⟨hplain, rfl, iff_of_true (by rw [List.count_eq_zero.mpr hnone]; omega) hnot⟩

/-- What a text holds beside blanks and percent signs. -/
def bare (U : CharClass) (raw : List Char) : List Char :=
  removeYuzde (raw.filter fun c => c != '%' && !U.space c)

/-- A text that is not even tried: it is empty, says that a figure is missing, or has
an exponent or a special value in it. -/
def Filtered (U : CharClass) (T : TextCase) (raw : List Char) : Prop :=
  strip U raw = [] ∨ strip U raw ∈ nullIndicators ∨
    (Regex.search U (exponentPattern U) (T.lower (strip U raw))).isSome = true ∨
    "nan".toList <:+: T.lower (strip U raw) ∨ "inf".toList <:+: T.lower (strip U raw)

instance (raw : List Char) : Decidable (Filtered U T raw) :=
  inferInstanceAs (Decidable (_ ∨ _ ∨ _ ∨ _ ∨ _))

/-- The text says that it is a percentage. -/
def saysPercent (U : CharClass) (T : TextCase) (raw : List Char) : Bool :=
  (strip U raw).contains '%' || decide ("yüzde".toList <:+: T.lower (strip U raw))

variable {raw : List Char} {localeHint : Option String}

/-- What is not tried has no value. -/
theorem parse_of_filtered (h : Filtered U T raw) :
    ∃ w, parseFinancialDecimal U T raw localeHint = .ok ⟨none, false, w⟩ := by
  simp only [parseFinancialDecimal]
  by_cases hempty : strip U raw = []
  · exact ⟨_, if_pos hempty⟩
  by_cases hnull : strip U raw ∈ nullIndicators
  · exact ⟨_, (if_neg hempty).trans (if_pos hnull)⟩
  · have hsearch := (h.resolve_left hempty).resolve_left hnull
    exact ⟨_, (if_neg hempty).trans ((if_neg hnull).trans (if_pos hsearch))⟩

/-- What is tried has the value that `Decimal` reads in its bare text, after the sign
and the separator rules. -/
theorem parse_of_not_filtered (h : ¬ Filtered U T raw) :
    parseFinancialDecimal U T raw localeHint =
      match signedDecimal U (separators (takeNegative U (bare U raw)).2 localeHint).1
          (takeNegative U (bare U raw)).1 with
      | .ok (some v) => .ok ⟨some v, saysPercent U T raw,
          (separators (takeNegative U (bare U raw)).2 localeHint).2⟩
      | .ok none => .ok ⟨none, false, ["UNPARSABLE_NUMBER"]⟩
      | .error x => .error x := by
  simp only [Filtered, not_or] at h
  have hfilter : (strip U raw).filter (fun c => c != '%' && !U.space c) =
      raw.filter fun c => c != '%' && !U.space c := filter_strip fun c hc => by simp [hc]
  simp only [parseFinancialDecimal, if_neg h.1, if_neg h.2.1,
    if_neg (not_or.mpr ⟨h.2.2.1, not_or.mpr h.2.2.2⟩), hfilter]
  rfl

/-- The value of a text. -/
theorem parse_value_iff {v : PyDecimal} :
    (∃ p w, parseFinancialDecimal U T raw localeHint = .ok ⟨some v, p, w⟩) ↔
      ¬ Filtered U T raw ∧
        signedDecimal U (separators (takeNegative U (bare U raw)).2 localeHint).1
          (takeNegative U (bare U raw)).1 = .ok (some v) := by
  by_cases hf : Filtered U T raw
  · obtain ⟨w, hw⟩ : ∃ w, parseFinancialDecimal U T raw localeHint = .ok ⟨none, false, w⟩ :=
      parse_of_filtered hf
    refine iff_of_false ?_ fun h => h.1 hf
    rintro ⟨p, w', h⟩
    rw [hw] at h
    cases h
  · rw [parse_of_not_filtered hf, and_iff_right hf]
    constructor
    · rintro ⟨p, w, h⟩
      split at h
      · rename_i v' heq
        cases h
        exact heq
      · cases h
      · cases h
    · intro h
      rw [h]
      exact ⟨_, _, rfl⟩

/-! ## The texts that are read as figures -/

theorem mem_of_mem_removeYuzde {c : Char} : ∀ {s : List Char}, c ∈ removeYuzde s → c ∈ s := by
  intro s
  fun_induction removeYuzde s with
  | case1 x y z d e rest hy ih =>
    intro h
    exact List.mem_append_right [x, y, z, d, e] (ih h)
  | case2 x y z d e rest hy ih =>
    intro h
    rcases List.mem_cons.mp h with rfl | h
    · exact List.mem_cons_self ..
    · exact List.mem_cons_of_mem _ (ih h)
  | case3 => exact id

/-- A bare text has no blanks. -/
theorem space_of_mem_bare {c : Char} (h : c ∈ bare U raw) : U.space c = false := by
  have h := List.of_mem_filter (mem_of_mem_removeYuzde h)
  simpa using (Bool.and_eq_true_iff.mp h).2

/-- The sign of a text without blanks. -/
theorem takeNegative_eq (hs : ∀ c ∈ s, U.space c = false) :
    takeNegative U s =
      if s.head? = some '(' ∧ s.getLast? = some ')' then (true, s.tail.dropLast)
      else if s.head? = some '-' then (true, s.tail) else (false, s) := by
  have htail : ∀ c ∈ s.tail, U.space c = false := fun c hc => hs c (List.mem_of_mem_tail hc)
  rw [takeNegative, strip_of_forall htail,
    strip_of_forall fun c hc => htail c (List.mem_of_mem_dropLast hc)]

/-- A figure starts with no sign. -/
theorem head_of_isFigure (h : IsFigure s) : s.head? ≠ some '(' ∧ s.head? ≠ some '-' := by
  constructor <;> intro hhead
  · cases h.figureChar _ (List.mem_of_mem_head? hhead)
  · cases h.figureChar _ (List.mem_of_mem_head? hhead)

/-- **A figure is what the sign leaves** of a printed one. -/
theorem isPrintedFigure_iff (hs : ∀ c ∈ s, U.space c = false) :
    IsPrintedFigure s ↔ IsFigure (takeNegative U s).2 := by
  rw [takeNegative_eq hs]
  constructor
  · rintro (h | ⟨body, rfl, h⟩ | ⟨body, rfl, h⟩)
    · rwa [if_neg fun hp => (head_of_isFigure h).1 hp.1, if_neg (head_of_isFigure h).2]
    · rwa [if_neg (by simp), if_pos (by rfl)]
    · have hbody : (body ++ [')']).dropLast = body := List.dropLast_concat
      rwa [if_pos ⟨by rfl, by simp [List.getLast?_cons]⟩, List.tail_cons, hbody]
  · intro h
    split at h
    · rename_i hparens
      obtain ⟨t, rfl⟩ : ∃ t, s = '(' :: t := by
        cases s with
        | nil => simp at hparens
        | cons c t => exact ⟨t, by simpa using hparens.1⟩
      have hlast : t.getLast? = some ')' := by
        cases t with
        | nil => simp at hparens
        | cons c t => simpa using hparens.2
      refine .inr (.inr ⟨t.dropLast, ?_, h⟩)
      rw [List.dropLast_append_getLast? _ hlast]
    · split at h
      · rename_i hminus
        cases s with
        | nil => simp at hminus
        | cons c t => exact .inr (.inl ⟨t, by simpa using hminus, h⟩)
      · exact .inl h

/-- `Decimal` does not take the text, or its context not the negation. -/
def Refused (U : CharClass) (s : List Char) (negative : Bool) : Prop :=
  match decimalOfText U s with
  | none => True
  | some v => negative = true ∧ ∀ v', v.neg Decimal.defaultContext ≠ .ok v'

theorem refused_iff {negative : Bool} :
    Refused U s negative ↔ ¬ ∃ v, signedDecimal U s negative = .ok (some v) := by
  rw [Refused, signedDecimal]
  cases decimalOfText U s with
  | none => simp
  | some v =>
    cases negative with
    | false => simp
    | true =>
      cases hv : v.neg Decimal.defaultContext with
      | ok v' => simp [hv]
      | error x => cases x <;> simp [hv]

/-- **What keeps the parser to numbers**: the text is filtered out, or is a figure; or
it has digits and separators alone, but no digit, or a separator of one kind before and
after one of the other; or `Decimal` does not take what the separator rules leave. -/
def KeepsToNumbers (U : CharClass) (T : TextCase) (raw : List Char) (localeHint : Option String) :
    Prop :=
  let (negative, body) := takeNegative U (bare U raw)
  Filtered U T raw ∨ IsFigure body ∨
    if body.all figureChar = true ∧ (body.filter Char.isDigit).length ≤ 28 then
      body.any Char.isDigit = false ∨ RepeatsLast body
    else Refused U (separators body localeHint).1 negative

/-- A text has a value only if it is a printed figure, and the value is a number. -/
def ReadsOnlyNumbers (U : CharClass) (T : TextCase) (raw : List Char)
    (localeHint : Option String) : Prop :=
  ∀ v p w, parseFinancialDecimal U T raw localeHint = .ok ⟨some v, p, w⟩ →
    (∃ q, v = .finite q) ∧ IsPrintedFigure (bare U raw)

end NormalizationService

end FinanceIntelligence
