import FinanceIntelligence.DecimalRounding
import FinanceIntelligence.FigureGrammar

/-!
# Two locales

The Turkish and the English way to print a number are mirror images: dots and commas change their
places. `parse_financial_decimal` with a Turkish hint reads a text like the mirrored text with an
English hint, but for one branch: of a single comma before three digits or more, the Turkish reading
drops the comma, where the English one keeps the point.

* `mirrorText` — **dots and commas exchanged**; it commutes with everything before the separators.
* `separators_mirror` — the separator rules are mirror images, but for that branch.
* `readAlike_iff` — **the texts that the two locales read alike**.
-/

namespace FinanceIntelligence

/-- The other separator. -/
def mirrorChar (c : Char) : Char := if c = '.' then ',' else if c = ',' then '.' else c

/-- The text with dots and commas exchanged. -/
def mirrorText (s : List Char) : List Char := s.map mirrorChar

section Mirror

variable {U : CharClass} {s : List Char} {c : Char}

@[simp] theorem mirrorChar_mirrorChar (c : Char) : mirrorChar (mirrorChar c) = c := by
  by_cases hdot : c = '.'
  · simp [mirrorChar, hdot]
  · by_cases hcomma : c = ',' <;> simp [mirrorChar, hdot, hcomma]

@[simp] theorem mirrorText_mirrorText (s : List Char) : mirrorText (mirrorText s) = s := by
  simp [mirrorText, Function.comp_def]

theorem mirrorChar_eq_iff {d : Char} : mirrorChar c = d ↔ c = mirrorChar d := by
  constructor
  · rintro rfl
    simp
  · rintro rfl
    simp

theorem mirrorText_eq_iff {t : List Char} : mirrorText s = t ↔ s = mirrorText t := by
  constructor
  · rintro rfl
    simp
  · rintro rfl
    simp

@[simp] theorem mirrorText_eq_nil : mirrorText s = [] ↔ s = [] := List.map_eq_nil_iff

theorem mem_mirrorText : c ∈ mirrorText s ↔ mirrorChar c ∈ s := by
  rw [mirrorText, List.mem_map]
  constructor
  · rintro ⟨d, hd, rfl⟩
    simpa using hd
  · exact fun h => ⟨_, h, mirrorChar_mirrorChar c⟩

theorem count_mirrorText : (mirrorText s).count c = s.count (mirrorChar c) := by
  have hinj : Function.Injective mirrorChar := fun a b h => by
    simpa using congrArg mirrorChar h
  have hcount := List.count_map_of_injective s mirrorChar hinj (mirrorChar c)
  rwa [mirrorChar_mirrorChar] at hcount

@[simp] theorem length_mirrorText : (mirrorText s).length = s.length := List.length_map ..

/-- The separators are no blanks. -/
theorem space_mirrorChar (hU : U.KnowsAscii) (c : Char) : U.space (mirrorChar c) = U.space c := by
  have hdot : U.space '.' = false := hU.space_eq '.' (by decide)
  have hcomma : U.space ',' = false := hU.space_eq ',' (by decide)
  rw [mirrorChar]
  split
  · rename_i h
    rw [h, hdot, hcomma]
  · split
    · rename_i h
      rw [h, hdot, hcomma]
    · rfl

theorem strip_mirrorText (hU : U.KnowsAscii) : strip U (mirrorText s) = mirrorText (strip U s) := by
  have hcomp : U.space ∘ mirrorChar = U.space := funext (space_mirrorChar hU)
  simp [strip, mirrorText, List.dropWhile_map, hcomp, ← List.map_reverse]

open NormalizationService

/-- A character that is no separator is found where it was. -/
theorem mirrorChar_beq {d : Char} (hd : mirrorChar d = d) : (mirrorChar c == d) = (c == d) := by
  rw [Bool.eq_iff_iff, beq_iff_eq, beq_iff_eq, mirrorChar_eq_iff, hd]

theorem isYuzde_mirrorChar (a b c d e : Char) :
    isYuzde (mirrorChar a) (mirrorChar b) (mirrorChar c) (mirrorChar d) (mirrorChar e) =
      isYuzde a b c d e := by
  rw [isYuzde, isYuzde]
  simp only [mirrorChar_beq (d := 'y') rfl, mirrorChar_beq (d := 'Y') rfl,
    mirrorChar_beq (d := 'ü') rfl, mirrorChar_beq (d := 'Ü') rfl, mirrorChar_beq (d := 'z') rfl,
    mirrorChar_beq (d := 'Z') rfl, mirrorChar_beq (d := 'd') rfl, mirrorChar_beq (d := 'D') rfl,
    mirrorChar_beq (d := 'e') rfl, mirrorChar_beq (d := 'E') rfl]

theorem removeYuzde_mirrorText : removeYuzde (mirrorText s) = mirrorText (removeYuzde s) := by
  fun_induction removeYuzde s with
  | case1 a b c d e rest h ih =>
    have h' := (isYuzde_mirrorChar a b c d e).trans h
    rw [← ih]
    simp only [mirrorText, List.map_cons]
    rw [removeYuzde, if_pos h']
  | case2 a b c d e rest h ih =>
    have h' : ¬ isYuzde (mirrorChar a) (mirrorChar b) (mirrorChar c) (mirrorChar d)
        (mirrorChar e) = true := by rwa [isYuzde_mirrorChar]
    simp only [mirrorText, List.map_cons] at ih ⊢
    rw [removeYuzde, if_neg h', ih]
  | case3 s h =>
    rw [removeYuzde]
    intro a b c d e rest heq
    rw [mirrorText_eq_iff] at heq
    exact h _ _ _ _ _ _ heq

/-- What a text holds beside blanks and percent signs, mirrored. -/
theorem bare_mirrorText (hU : U.KnowsAscii) : bare U (mirrorText s) = mirrorText (bare U s) := by
  have hkeep (c : Char) : (mirrorChar c != '%' && !U.space (mirrorChar c)) =
      (c != '%' && !U.space c) := by
    rw [space_mirrorChar hU, bne, bne, mirrorChar_beq (d := '%') rfl]
  have hfilter : (mirrorText s).filter (fun c => c != '%' && !U.space c) =
      mirrorText (s.filter fun c => c != '%' && !U.space c) := by
    rw [mirrorText, List.filter_map]
    congr 1
    exact List.filter_congr fun c _ => hkeep c
  rw [bare, hfilter, removeYuzde_mirrorText, bare]

theorem takeNegative_mirrorText (hU : U.KnowsAscii) : takeNegative U (mirrorText s) =
    ((takeNegative U s).1, mirrorText (takeNegative U s).2) := by
  have hhead (c : Char) (hc : mirrorChar c = c) :
      (mirrorText s).head? = some c ↔ s.head? = some c := by
    rw [mirrorText, List.head?_map, Option.map_eq_some_iff]
    simp [mirrorChar_eq_iff, hc]
  have hlast (c : Char) (hc : mirrorChar c = c) :
      (mirrorText s).getLast? = some c ↔ s.getLast? = some c := by
    rw [mirrorText, List.getLast?_map, Option.map_eq_some_iff]
    simp [mirrorChar_eq_iff, hc]
  have htail : (mirrorText s).tail = mirrorText s.tail := List.map_tail.symm
  have hdrop : (mirrorText s.tail).dropLast = mirrorText s.tail.dropLast := List.map_dropLast.symm
  rw [takeNegative, takeNegative]
  simp only [hhead '(' rfl, hlast ')' rfl, hhead '-' rfl, htail, hdrop, strip_mirrorText hU]
  split
  · rfl
  · split <;> rfl

end Mirror

/-! ## What is not tried -/

/-- The small sigma at the end of a word, as the one within a word. -/
def plainSigma (c : Char) : Char := if c = 'ς' then 'σ' else c

/-- Characters have their small letters each on its own, but for the form of a sigma. -/
structure TextCase.LowersByCharacter (T : TextCase) (U : CharClass) : Prop where
  /-- a text is as small as its characters are; separators have no case -/
  lower_eq : ∃ low : Char → List Char, low '.' = ['.'] ∧ low ',' = [','] ∧
    ∀ s, (T.lower s).map plainSigma = (s.flatMap low).map plainSigma
  /-- no sigma is a digit -/
  digit_sigma : U.digit 'ς' = none ∧ U.digit 'σ' = none

theorem TextCase.lowersByCharacter_ascii : TextCase.ascii.LowersByCharacter .ascii where
  lower_eq := ⟨fun c => [c.toLower], rfl, rfl, fun s => by
    rw [← List.map_eq_flatMap]
    rfl⟩
  digit_sigma := ⟨rfl, rfl⟩

/-- A character of a text in small letters, without the difference between the separators and
between the sigmas. -/
def blur (c : Char) : Char := if c = ',' then '.' else plainSigma c

section Filter

open NormalizationService

variable {U : CharClass} {T : TextCase} {s : List Char}

theorem blur_plainSigma (c : Char) : blur (plainSigma c) = blur c := by
  by_cases hsigma : c = 'ς'
  · subst hsigma
    rfl
  · rw [plainSigma, if_neg hsigma]

/-- **Small letters** show the same of a text and of its mirror image. -/
theorem blur_lower_mirrorText (hT : T.LowersByCharacter U) :
    (T.lower (mirrorText s)).map blur = (T.lower s).map blur := by
  obtain ⟨low, hdot, hcomma, hlow⟩ := hT.lower_eq
  have hblur (s : List Char) : (T.lower s).map blur = s.flatMap fun c => (low c).map blur := by
    have h := congrArg (List.map blur) (hlow s)
    simpa [Function.comp_def, blur_plainSigma, List.map_flatMap] using h
  rw [hblur, hblur, mirrorText, List.flatMap_map]
  refine List.flatMap_congr fun c _ => ?_
  rw [mirrorChar]
  split
  · rename_i h
    rw [h, hdot, hcomma]
    rfl
  · split
    · rename_i h
      rw [h, hdot, hcomma]
      rfl
    · rfl

/-- A text of other characters is found in the one if it is found in the other. -/
theorem infix_map_blur {t : List Char} (ht : ∀ c ∈ t, ∀ x, blur x = c ↔ x = c) :
    t <:+: s.map blur ↔ t <:+: s := by
  have heq : ∀ l : List Char, (∀ c ∈ t, ∀ x, blur x = c ↔ x = c) → (t = l.map blur ↔ t = l) := by
    intro l
    induction t generalizing l with
    | nil => cases l <;> simp
    | cons c t ih =>
      intro ht
      cases l with
      | nil => simp
      | cons x l =>
        rw [List.map_cons, List.cons_eq_cons, List.cons_eq_cons,
          ih (fun c hc => ht c (List.mem_cons_of_mem _ hc)) l
            (fun c hc => ht c (List.mem_cons_of_mem _ hc)), eq_comm,
          ht c (List.mem_cons_self ..), eq_comm (a := x)]
  rw [List.infix_map_iff]
  constructor
  · rintro ⟨l, hl, h⟩
    rwa [(heq l ht).mp h]
  · exact fun h => ⟨t, h, (heq t ht).mpr rfl⟩

theorem infix_lower_mirrorText (hT : T.LowersByCharacter U) {t : List Char}
    (ht : ∀ c ∈ t, ∀ x, blur x = c ↔ x = c) :
    t <:+: T.lower (mirrorText s) ↔ t <:+: T.lower s := by
  rw [← infix_map_blur (s := T.lower (mirrorText s)) ht, blur_lower_mirrorText hT,
    infix_map_blur ht]

/-- What a character is blurred to. -/
theorem blur_eq_iff {c x : Char} (hc : c ≠ '.' ∧ c ≠ ',' ∧ c ≠ 'σ' ∧ c ≠ 'ς') :
    blur x = c ↔ x = c := by
  rw [blur, plainSigma]
  split
  · rename_i h
    subst h
    exact iff_of_false (Ne.symm hc.1) (Ne.symm hc.2.1)
  · split
    · rename_i h
      subst h
      exact iff_of_false (Ne.symm hc.2.2.1) (Ne.symm hc.2.2.2)
    · rfl

/-- Texts of other characters are not blurred. -/
theorem blur_eq_iff_of_all {t : List Char}
    (ht : t.all (fun c => c != '.' && c != ',' && c != 'σ' && c != 'ς') = true) :
    ∀ c ∈ t, ∀ x, blur x = c ↔ x = c := by
  intro c hc x
  have hplain := List.all_eq_true.mp ht c hc
  simp only [Bool.and_eq_true, bne_iff_ne, and_assoc] at hplain
  exact blur_eq_iff hplain

theorem blind_exponentPattern (hU : U.KnowsAscii) (hT : T.LowersByCharacter U) :
    (exponentPattern U).Blind blur := by
  have hdigit (c : Char) : (U.digit (blur c)).isSome = (U.digit c).isSome := by
    rw [blur, plainSigma]
    split
    · rename_i h
      rw [h, hU.digit_eq '.' (by decide), hU.digit_eq ',' (by decide)]
      rfl
    · split
      · rename_i h
        rw [h, hT.digit_sigma.1, hT.digit_sigma.2]
      · rfl
  have hletter (c d : Char) (hd : d ≠ '.' ∧ d ≠ ',' ∧ d ≠ 'σ' ∧ d ≠ 'ς') :
      (blur c == d) = (c == d) := by
    rw [Bool.eq_iff_iff, beq_iff_eq, beq_iff_eq, blur_eq_iff hd]
  refine ⟨⟨hdigit, hdigit⟩, fun c => hletter c 'e' (by decide), fun c => ?_, hdigit, hdigit⟩
  simp only [hletter c '+' (by decide), hletter c '-' (by decide)]

theorem search_lower_mirrorText (hU : U.KnowsAscii) (hT : T.LowersByCharacter U) :
    (Regex.search U (exponentPattern U) (T.lower (mirrorText s))).isSome =
      (Regex.search U (exponentPattern U) (T.lower s)).isSome := by
  have hblind := blind_exponentPattern hU hT
  rw [← Regex.isSome_search_map hblind (T.lower (mirrorText s)), blur_lower_mirrorText hT,
    Regex.isSome_search_map hblind]

/-- The mirror image says that it is a percentage if the text does. -/
theorem saysPercent_mirrorText (hU : U.KnowsAscii) (hT : T.LowersByCharacter U) :
    saysPercent U T (mirrorText s) = saysPercent U T s := by
  have hpercent : (mirrorText (strip U s)).contains '%' = (strip U s).contains '%' := by
    rw [Bool.eq_iff_iff, List.contains_iff_mem, List.contains_iff_mem, mem_mirrorText]
    rfl
  have hyuzde : "yüzde".toList <:+: T.lower (mirrorText (strip U s)) ↔
      "yüzde".toList <:+: T.lower (strip U s) :=
    infix_lower_mirrorText hT (blur_eq_iff_of_all (by decide))
  rw [saysPercent, saysPercent, strip_mirrorText hU, hpercent]
  simp only [hyuzde]

/-- A text that stands for no figure has no separator. -/
theorem mirrorText_mem_nullIndicators : mirrorText s ∈ nullIndicators ↔ s ∈ nullIndicators := by
  have hfixed : ∀ x ∈ nullIndicators, mirrorText x = x := by decide
  constructor
  · intro h
    have hs := hfixed _ h
    rw [mirrorText_mirrorText] at hs
    rwa [hs]
  · intro h
    rwa [hfixed s h]

/-- What the filters catch before anything is read. -/
theorem forbidden_mirrorText (hU : U.KnowsAscii) (hT : T.LowersByCharacter U) :
    ((Regex.search U (exponentPattern U) (T.lower (mirrorText s))).isSome = true ∨
        "nan".toList <:+: T.lower (mirrorText s) ∨ "inf".toList <:+: T.lower (mirrorText s)) ↔
      ((Regex.search U (exponentPattern U) (T.lower s)).isSome = true ∨
        "nan".toList <:+: T.lower s ∨ "inf".toList <:+: T.lower s) := by
  rw [search_lower_mirrorText hU hT,
    infix_lower_mirrorText hT (blur_eq_iff_of_all (by decide)),
    infix_lower_mirrorText hT (blur_eq_iff_of_all (by decide))]

variable {raw : List Char}

/-- The filters catch the mirror image of what they catch. -/
theorem filtered_mirrorText (hU : U.KnowsAscii) (hT : T.LowersByCharacter U) :
    Filtered U T (mirrorText raw) ↔ Filtered U T raw := by
  rw [Filtered, Filtered, strip_mirrorText hU, forbidden_mirrorText hU hT,
    mirrorText_mem_nullIndicators, mirrorText_eq_nil]

/-- What the filters catch is read alike. -/
theorem parse_mirrorText_of_filtered (hU : U.KnowsAscii) (hT : T.LowersByCharacter U)
    {hint hint' : Option String} (h : Filtered U T raw) :
    parseFinancialDecimal U T raw hint = parseFinancialDecimal U T (mirrorText raw) hint' := by
  simp only [parseFinancialDecimal, strip_mirrorText hU, mirrorText_mem_nullIndicators,
    forbidden_mirrorText hU hT, mirrorText_eq_nil]
  by_cases hempty : strip U raw = []
  · rw [if_pos hempty, if_pos hempty]
  · by_cases hnull : strip U raw ∈ nullIndicators
    · rw [if_neg hempty, if_pos hnull, if_neg hempty, if_pos hnull]
    · have hforbidden := (h.resolve_left hempty).resolve_left hnull
      rw [if_neg hempty, if_neg hnull, if_pos hforbidden, if_neg hempty, if_neg hnull,
        if_pos hforbidden]

end Filter

/-! ## The separators -/

section Separators

open NormalizationService

variable {s : List Char}

/-- A hint at the Turkish way to print numbers. -/
def IsTurkish (hint : String) : Prop := hint = "tr_TR" ∨ hint = "TR"

/-- A hint at the English way. -/
def IsEnglish (hint : String) : Prop := hint = "en_US" ∨ hint = "EN"

/-- A single comma that neither one nor two characters follow, in a text without dots. -/
def LoneComma (s : List Char) : Prop :=
  '.' ∉ s ∧ s.count ',' = 1 ∧ ((s.splitOn ',').getD 1 []).length ∉ [1, 2]

instance (s : List Char) : Decidable (LoneComma s) := inferInstanceAs (Decidable (_ ∧ _ ∧ _))

theorem removeChar_mirrorText (c : Char) :
    removeChar c (mirrorText s) = mirrorText (removeChar (mirrorChar c) s) := by
  rw [removeChar, mirrorText, List.filter_map, removeChar, mirrorText]
  congr 1
  refine List.filter_congr fun d _ => ?_
  rw [Function.comp_apply, Bool.eq_iff_iff, bne_iff_ne, bne_iff_ne, Ne, mirrorChar_eq_iff]

/-- Without dots, the mirror image has points where the text has commas. -/
theorem mirrorText_of_not_mem (h : '.' ∉ s) : mirrorText s = replaceChar ',' '.' s := by
  refine List.map_congr_left fun c hc => ?_
  have hne : c ≠ '.' := fun heq => h (heq ▸ hc)
  rw [mirrorChar, if_neg hne]

/-- Without commas, the text has points where its mirror image has commas. -/
theorem replaceChar_mirrorText (h : ',' ∉ s) : replaceChar ',' '.' (mirrorText s) = s := by
  rw [replaceChar, mirrorText, List.map_map]
  refine (List.map_congr_left fun c hc => ?_).trans (List.map_id' s)
  have hne : c ≠ ',' := fun heq => h (heq ▸ hc)
  by_cases hdot : c = '.'
  · subst hdot
    rfl
  · simp [mirrorChar, hdot, hne]

theorem rfind_mirrorText (c : Char) : rfind c (mirrorText s) = rfind (mirrorChar c) s := by
  have hidx : ∀ l : List Char, (mirrorText l).idxOf c = l.idxOf (mirrorChar c) := by
    intro l
    induction l with
    | nil => rfl
    | cons d l ih =>
      rw [mirrorText, List.map_cons, List.idxOf_cons, List.idxOf_cons]
      rw [mirrorText] at ih
      have hbeq : (mirrorChar d == c) = (d == mirrorChar c) := by
        rw [Bool.eq_iff_iff, beq_iff_eq, beq_iff_eq, mirrorChar_eq_iff]
      rw [hbeq, ih]
  have hreverse : (mirrorText s).reverse = mirrorText s.reverse := List.map_reverse.symm
  rw [rfind, rfind, length_mirrorText, hreverse, hidx]

theorem splitOn_mirrorText (c : Char) :
    (mirrorText s).splitOn c = (s.splitOn (mirrorChar c)).map mirrorText := by
  induction s with
  | nil => rfl
  | cons d s ih =>
    rw [mirrorText] at ih ⊢
    rw [List.map_cons, List.splitOn_cons_eq_if_modifyHead, List.splitOn_cons_eq_if_modifyHead, ih]
    have hbeq : (mirrorChar d == c) = (d == mirrorChar c) := by
      rw [Bool.eq_iff_iff, beq_iff_eq, beq_iff_eq, mirrorChar_eq_iff]
    rw [hbeq]
    split
    · rfl
    · cases s.splitOn (mirrorChar c) <;> rfl

theorem getD_splitOn_mirrorText (c : Char) : ((mirrorText s).splitOn c).getD 1 [] =
    mirrorText ((s.splitOn (mirrorChar c)).getD 1 []) := by
  rw [splitOn_mirrorText, List.getD_eq_getElem?_getD, List.getD_eq_getElem?_getD,
    List.getElem?_map]
  cases (s.splitOn (mirrorChar c))[1]? <;> rfl

/-- A text without separators is its own mirror image. -/
theorem mirrorText_of_plain (hdot : '.' ∉ s) (hcomma : ',' ∉ s) : mirrorText s = s := by
  refine (List.map_congr_left fun c hc => ?_).trans (List.map_id' s)
  have hne : c ≠ '.' := fun heq => hdot (heq ▸ hc)
  have hne' : c ≠ ',' := fun heq => hcomma (heq ▸ hc)
  rw [mirrorChar, if_neg hne, if_neg hne']

theorem not_mem_removeChar {c : Char} : c ∉ removeChar c s := by simp [removeChar]

theorem mem_removeChar_of_ne {c d : Char} (h : d ∉ s) : d ∉ removeChar c s :=
  fun hd => h (List.mem_of_mem_filter hd)

/-- Two characters of a text do not stand at the same place. -/
theorem rfind_ne {c d : Char} (hc : c ∈ s) (hd : d ∈ s) (hne : c ≠ d) : rfind c s ≠ rfind d s := by
  have hlt := List.idxOf_lt_length_of_mem (List.mem_reverse.mpr hc)
  have hlt' := List.idxOf_lt_length_of_mem (List.mem_reverse.mpr hd)
  rw [List.length_reverse] at hlt hlt'
  rw [rfind, rfind]
  intro h
  have hidx : s.reverse.idxOf c = s.reverse.idxOf d := by omega
  exact hne ((List.idxOf_inj (List.mem_reverse.mpr hc)).mp hidx)

theorem IsTurkish.not_isEnglish {hint : String} (h : IsTurkish hint) :
    ¬ (some hint = some "en_US" ∨ some hint = some "EN") := by
  obtain rfl | rfl := h <;> decide

theorem IsEnglish.not_isTurkish {hint : String} (h : IsEnglish hint) :
    ¬ (some hint = some "tr_TR" ∨ some hint = some "TR") := by
  obtain rfl | rfl := h <;> decide

variable {tr en : String}

/-- **The separator rules are mirror images**, unless there is a lone comma. -/
theorem separators_mirror (htr : IsTurkish tr) (hen : IsEnglish en) (h : ¬ LoneComma s) :
    separators (mirrorText s) (some en) = separators s (some tr) := by
  have hdot : '.' ∈ mirrorText s ↔ ',' ∈ s := mem_mirrorText
  have hcomma : ',' ∈ mirrorText s ↔ '.' ∈ s := mem_mirrorText
  have hlength (c : Char) : ((mirrorText s).splitOn c).length =
      (s.splitOn (mirrorChar c)).length := by rw [splitOn_mirrorText, List.length_map]
  have hpart (c : Char) : (((mirrorText s).splitOn c).getD 1 []).length =
      ((s.splitOn (mirrorChar c)).getD 1 []).length := by
    rw [getD_splitOn_mirrorText, length_mirrorText]
  rw [separators, separators]
  simp only [hdot, hcomma, hlength, hpart, rfind_mirrorText, removeChar_mirrorText]
  have hmirrorDot : mirrorChar '.' = ',' := rfl
  have hmirrorComma : mirrorChar ',' = '.' := rfl
  rw [hmirrorDot, hmirrorComma]
  by_cases hd : '.' ∈ s
  · by_cases hc : ',' ∈ s
    · -- the last separator is the decimal one
      rw [if_pos ⟨hc, hd⟩]
      obtain hlt | hlt := Nat.lt_or_gt_of_ne (rfind_ne hd hc (by decide))
      · rw [if_pos hlt, if_pos ⟨hd, hc⟩, if_neg (by omega),
          mirrorText_of_not_mem not_mem_removeChar]
      · rw [if_neg (by omega), if_pos ⟨hd, hc⟩, if_pos hlt,
          replaceChar_mirrorText not_mem_removeChar]
    · -- dots, and commas in the mirror
      simp only [hd, hc, false_and, and_false, if_true, if_false, replaceChar_mirrorText hc,
        mirrorText_of_plain not_mem_removeChar (mem_removeChar_of_ne hc), hen.not_isTurkish,
        htr.not_isEnglish]
  · by_cases hc : ',' ∈ s
    · -- commas, and dots in the mirror
      simp only [hd, hc, false_and, and_false, if_true, if_false, mirrorText_of_not_mem hd,
        mirrorText_of_plain (mem_removeChar_of_ne hd) not_mem_removeChar]
      split
      · rfl
      · rename_i hshort
        split
        · rfl
        · rename_i hmany
          have hcount := List.count_pos_iff.mpr hc
          rw [length_splitOn] at hshort hmany
          exact absurd ⟨hd, by omega, fun hmem => hshort ⟨by omega, hmem⟩⟩ h
    · simp only [hd, hc, false_and, if_false, mirrorText_of_plain hd hc]

/-- **A lone comma** is dropped with a Turkish hint, and its mirror image kept with an English
one. -/
theorem separators_of_loneComma (htr : IsTurkish tr) (hen : IsEnglish en) (h : LoneComma s) :
    separators s (some tr) = (removeChar ',' s, []) ∧
      separators (mirrorText s) (some en) = (replaceChar ',' '.' s, []) := by
  obtain ⟨hd, hcount, hshort⟩ := h
  have hc : ',' ∈ s := List.count_pos_iff.mp (by omega)
  have hpart : ((mirrorText s).splitOn '.').getD 1 [] = mirrorText ((s.splitOn ',').getD 1 []) :=
    getD_splitOn_mirrorText '.'
  have hcount' : (mirrorText s).count '.' = 1 := count_mirrorText.trans hcount
  have hdot : '.' ∈ mirrorText s := mem_mirrorText.mpr hc
  have hcomma : ',' ∉ mirrorText s := fun h => hd (mem_mirrorText.mp h)
  constructor
  · rw [separators]
    simp only
    rw [if_neg (by simp [hd]), if_pos hc, if_neg (fun h => hshort h.2),
      if_neg (by rw [length_splitOn]; omega), if_pos (htr.imp (congrArg some) (congrArg some))]
  · rw [separators]
    simp only
    rw [if_neg (by simp [hcomma]), if_neg hcomma, if_pos hdot, hpart, length_mirrorText,
      if_neg (fun h => hshort h.2),
      if_neg (by rw [length_splitOn]; omega),
      if_pos (hen.imp (congrArg some) (congrArg some)), mirrorText_of_not_mem hd]

end Separators

end FinanceIntelligence
