import FinanceIntelligence.FigureGrammar
import FinanceIntelligence.PrefixCodes

/-!
# Printed amounts are read back

A filing prints an amount with two decimals, in the Turkish or in the English way,
its thousands grouped or not, with a minus or in parentheses if it is negative, and
with a percent sign before or after. `Rendering` is one such way, and
`parse_rendering` says that `parse_financial_decimal` reads every amount of at most
28 digits back **as it was printed**, whatever the hint.
-/

namespace FinanceIntelligence

/-- Texts without letters have no case. -/
structure TextCase.KeepsCaseless (T : TextCase) (U : CharClass) : Prop where
  /-- blanks and the ASCII characters that are no letters stay as they are -/
  lower_eq : ∀ s : List Char,
    (∀ c ∈ s, U.space c = true ∨ (c.toNat < 128 ∧ c.isAlpha = false)) → T.lower s = s

theorem TextCase.keepsCaseless_ascii : TextCase.ascii.KeepsCaseless .ascii where
  lower_eq s hs := by
    refine (List.map_congr_left fun c hc => ?_).trans (List.map_id' s)
    refine dif_neg fun hupper => ?_
    rcases hs c hc with h | h
    · have hge : 65 ≤ c.toNat := UInt32.le_iff_toNat_le.mp hupper.1
      have hne : c ≠ ' ' := by
        rintro rfl
        exact absurd hge (by decide)
      simp only [CharClass.ascii, Bool.or_eq_true, Bool.and_eq_true, beq_iff_eq, hne, false_or,
        decide_eq_true_eq] at h
      omega
    · have hup : c.isUpper = true := decide_eq_true hupper
      have halpha : c.isAlpha = true := Bool.or_eq_true_iff.mpr (.inl hup)
      rw [halpha] at h
      cases h.2

/-! ## Renderings -/

/-- The two ways to set separators. -/
inductive Convention where
  /-- `1.234,56` -/
  | turkish
  /-- `1,234.56` -/
  | english
  deriving DecidableEq

/-- What stands between thousands. -/
def Convention.groupMark : Convention → Char
  | .turkish => '.'
  | .english => ','

/-- What stands before the decimals. -/
def Convention.decimalMark : Convention → Char
  | .turkish => ','
  | .english => '.'

/-- How a number is marked as negative. -/
inductive PrintedSign where
  /-- not at all -/
  | positive
  /-- with a minus before it -/
  | minus
  | parentheses
  deriving DecidableEq

/-- The number is negative. -/
def PrintedSign.negative : PrintedSign → Bool
  | .positive => false
  | _ => true

/-- A text with its sign. -/
def PrintedSign.around : PrintedSign → List Char → List Char
  | .positive, s => s
  | .minus, s => '-' :: s
  | .parentheses, s => '(' :: (s ++ [')'])

/-- Where a percent sign stands. -/
inductive PercentSign where
  /-- nowhere -/
  | absent
  /-- before the number -/
  | before
  /-- after the number -/
  | after
  deriving DecidableEq

/-- A text with its percent sign, a gap between them. -/
def PercentSign.around (gap : List Char) : PercentSign → List Char → List Char
  | .absent, s => s
  | .before, s => '%' :: (gap ++ s)
  | .after, s => s ++ (gap ++ ['%'])

section Around

variable {P : Char → Prop} {keep : Char → Bool} {s gap : List Char}

theorem PrintedSign.forall_around (hminus : P '-') (hleft : P '(') (hright : P ')')
    (hs : ∀ c ∈ s, P c) (σ : PrintedSign) : ∀ c ∈ σ.around s, P c := by
  intro c hc
  have hmem : c ∈ s ∨ c = '-' ∨ c = '(' ∨ c = ')' := by
    cases σ <;> simp [around] at hc ⊢ <;> tauto
  rcases hmem with h | rfl | rfl | rfl
  · exact hs c h
  · exact hminus
  · exact hleft
  · exact hright

theorem PercentSign.forall_around (hP : P '%') (hgap : ∀ c ∈ gap, P c) (hs : ∀ c ∈ s, P c)
    (π : PercentSign) : ∀ c ∈ π.around gap s, P c := by
  intro c hc
  have hmem : c ∈ s ∨ c ∈ gap ∨ c = '%' := by
    cases π <;> simp [around] at hc ⊢ <;> tauto
  rcases hmem with h | h | rfl
  · exact hs c h
  · exact hgap c h
  · exact hP

/-- A sign that is kept stays around what is kept. -/
theorem PrintedSign.filter_around (hminus : keep '-' = true) (hleft : keep '(' = true)
    (hright : keep ')' = true) (σ : PrintedSign) :
    (σ.around s).filter keep = σ.around (s.filter keep) := by
  cases σ <;> simp [around, hminus, hleft, hright]

/-- A percent sign that is dropped leaves nothing. -/
theorem PercentSign.filter_around (hkeep : keep '%' = false) (hgap : ∀ c ∈ gap, keep c = false)
    (π : PercentSign) : (π.around gap s).filter keep = s.filter keep := by
  have hnil : gap.filter keep = [] := List.filter_eq_nil_iff.mpr fun c hc => by simp [hgap c hc]
  cases π <;> simp [around, hkeep, hnil]

theorem PrintedSign.percent_mem_around (σ : PrintedSign) : '%' ∈ σ.around s ↔ '%' ∈ s := by
  cases σ <;> simp [around]

theorem PercentSign.percent_mem_around (hgap : '%' ∉ gap) (π : PercentSign) :
    '%' ∈ π.around gap s ↔ π ≠ .absent ∨ '%' ∈ s := by
  cases π <;> simp [around, hgap]

end Around

/-- Digits in groups of three, the last digit first. -/
def groupReversed (g : Char) : List Char → List Char
  | a :: b :: c :: d :: rest => a :: b :: c :: g :: groupReversed g (d :: rest)
  | s => s

/-- Digits in groups of three. -/
def groupThousands (g : Char) (s : List Char) : List Char := (groupReversed g s.reverse).reverse

/-- A way to print an amount. -/
structure Rendering (U : CharClass) where
  /-- the separators -/
  convention : Convention
  /-- the thousands are grouped -/
  grouped : Bool
  sign : PrintedSign
  /-- the percent sign -/
  percent : PercentSign
  /-- the sign is around the percent sign, not the other way round -/
  signOutside : Bool
  /-- what stands between the percent sign and the rest -/
  gap : List Char
  /-- what stands before -/
  left : List Char
  /-- what stands after -/
  right : List Char
  /-- nothing but blanks stand around -/
  blank : ∀ c ∈ left ++ gap ++ right, U.space c = true

namespace Rendering

variable {U : CharClass} (r : Rendering U)

/-- The digits of the whole part. -/
def whole (n : ℕ) : List Char :=
  if r.grouped then groupThousands r.convention.groupMark (Nat.toDigits 10 (n / 100))
  else Nat.toDigits 10 (n / 100)

/-- `n` hundredths, with two decimals. -/
def figure (n : ℕ) : List Char := r.whole n ++ r.convention.decimalMark :: decimalText 2 n

/-- `n` hundredths, with the sign and the percent sign. -/
def decorated (n : ℕ) : List Char :=
  if r.signOutside then r.sign.around (r.percent.around r.gap (r.figure n))
  else r.percent.around r.gap (r.sign.around (r.figure n))

/-- `n` hundredths as they are printed. -/
def text (n : ℕ) : List Char := r.left ++ r.decorated n ++ r.right

end Rendering

/-- A negative percentage as a Turkish filing prints it. -/
def Rendering.turkishPercent : Rendering .ascii where
  convention := .turkish
  grouped := true
  sign := .parentheses
  percent := .before
  signOutside := false
  gap := []
  left := [' ']
  right := []
  blank := by simp [CharClass.ascii]

example : Rendering.turkishPercent.text 123456789 = " %(1.234.567,89)".toList := by
  decide

/-! ## The parts of a rendering -/

section Parts

variable {g d : Char} {s w f : List Char}

theorem removeChar_groupReversed (hs : g ∉ s) : removeChar g (groupReversed g s) = s := by
  fun_induction groupReversed g s with
  | case1 a b c d rest ih =>
    simp only [List.mem_cons, not_or] at hs
    have ih := ih (by simpa using hs.2.2.2)
    rw [removeChar] at ih ⊢
    rw [List.filter_cons_of_pos (by simpa using Ne.symm hs.1),
      List.filter_cons_of_pos (by simpa using Ne.symm hs.2.1),
      List.filter_cons_of_pos (by simpa using Ne.symm hs.2.2.1),
      List.filter_cons_of_neg (by simp), ih]
  | case2 s =>
    exact List.filter_eq_self.mpr fun c hc => bne_iff_ne.mpr fun h => hs (h ▸ hc)

/-- The marks between groups can be taken out again. -/
theorem removeChar_groupThousands (hs : g ∉ s) : removeChar g (groupThousands g s) = s := by
  have h := removeChar_groupReversed (s := s.reverse) fun h => hs (List.mem_reverse.mp h)
  rw [removeChar] at h ⊢
  rw [groupThousands, List.filter_reverse, h, List.reverse_reverse]

/-- Where the last decimal mark stands. -/
theorem rfind_append_cons (hf : d ∉ f) : rfind d (w ++ d :: f) = w.length := by
  have hidx : (w ++ d :: f).reverse.idxOf d = f.length := by
    simp [List.reverse_append, List.idxOf_append_of_notMem, hf]
  rw [rfind, hidx, List.length_append, List.length_cons]
  omega

/-- The marks of the whole part stand before it. -/
theorem rfind_lt_of_mem (hw : g ∈ w) (hf : g ∉ d :: f) : rfind g (w ++ d :: f) < w.length := by
  have hidx : (w ++ d :: f).reverse.idxOf g = f.length + 1 + w.reverse.idxOf g := by
    have hnot : g ∉ (d :: f).reverse := fun h => hf (List.mem_reverse.mp h)
    rw [List.reverse_append, List.idxOf_append_of_notMem hnot, List.length_reverse,
      List.length_cons]
  have hpos := List.length_pos_of_mem hw
  rw [rfind, hidx, List.length_append, List.length_cons]
  omega

theorem removeYuzde_of_not_mem (hs : ∀ c ∈ s, c ≠ 'y' ∧ c ≠ 'Y') :
    NormalizationService.removeYuzde s = s := by
  fun_induction NormalizationService.removeYuzde s with
  | case1 a b c d e rest h ih =>
    have ha := hs a (List.mem_cons_self ..)
    simp [NormalizationService.isYuzde, ha.1, ha.2] at h
  | case2 a b c d e rest h ih => rw [ih fun c hc => hs c (List.mem_cons_of_mem _ hc)]
  | case3 => rfl

end Parts

namespace NormalizationService

/-- **The separator rules** undo either convention. -/
theorem separators_amount {v : Convention} {w ds f : List Char} (hw : removeChar v.groupMark w = ds)
    (hds : ∀ c ∈ ds, c.isDigit = true) (hf : ∀ c ∈ f, c.isDigit = true) (hlen : f.length = 2)
    (localeHint : Option String) :
    separators (w ++ v.decimalMark :: f) localeHint = (ds ++ '.' :: f, []) := by
  have hmark : ∀ {c : Char} {l : List Char}, c.isDigit = false → (∀ x ∈ l, x.isDigit = true) →
      c ∉ l := fun hc hl h => by
    rw [hl _ h] at hc
    cases hc
  have hwhole : ∀ c ∈ w, c = v.groupMark ∨ c.isDigit = true := by
    intro c hc
    by_cases h : c = v.groupMark
    · exact .inl h
    · exact .inr (hds c (hw ▸ List.mem_filter.mpr ⟨hc, bne_iff_ne.mpr h⟩))
  have hungrouped : v.groupMark ∉ w → w = ds := by
    intro h
    rw [← hw]
    refine (List.filter_eq_self.mpr fun c hc => bne_iff_ne.mpr ?_).symm
    rintro rfl
    exact h hc
  have hparts : ∀ {m : Char}, m ∉ w → m ∉ f → (w ++ m :: f).splitOn m = [w, f] := by
    intro m hmw hmf
    rw [List.splitOn_append_cons_self_of_not_mem hmw, List.splitOn_eq_singleton hmf]
  have hplain : ∀ {m : Char} {l : List Char}, m.isDigit = false → (∀ x ∈ l, x.isDigit = true) →
      removeChar m l = l := fun hm hl =>
    List.filter_eq_self.mpr fun c hc => bne_iff_ne.mpr fun h => hmark hm hl (h ▸ hc)
  have hcommas : ∀ {l : List Char}, (∀ x ∈ l, x.isDigit = true) →
      replaceChar ',' '.' (l ++ ',' :: f) = l ++ '.' :: f := by
    have hkept : ∀ {l : List Char}, (∀ x ∈ l, x.isDigit = true) → replaceChar ',' '.' l = l :=
      fun hl => (List.map_congr_left fun c hc =>
        if_neg fun h => hmark (by decide) hl (h ▸ hc)).trans (List.map_id' _)
    intro l hl
    rw [replaceChar, List.map_append, List.map_cons, if_pos rfl]
    exact congrArg₂ (fun x y => x ++ '.' :: y) (hkept hl) (hkept hf)
  cases v with
  | turkish =>
    have hcomma : ',' ∉ w := fun h => by rcases hwhole _ h with h | h <;> cases h
    have hpoint : '.' ∉ f := hmark (by decide) hf
    have hmem : ',' ∈ w ++ ',' :: f := List.mem_append_right _ (List.mem_cons_self ..)
    change separators (w ++ ',' :: f) localeHint = _
    simp only [separators, hmem, and_true, if_true]
    by_cases hgroups : '.' ∈ w
    · -- both marks occur, the comma last
      have hlast : ¬ rfind ',' (w ++ ',' :: f) < rfind '.' (w ++ ',' :: f) := by
        have hlt := rfind_lt_of_mem (d := ',') hgroups (by simpa using hpoint)
        rw [rfind_append_cons (hmark (by decide) hf)]
        omega
      rw [if_pos (List.mem_append_left _ hgroups), if_neg hlast, removeChar, List.filter_append,
        List.filter_cons_of_pos (by decide)]
      change (replaceChar ',' '.' (removeChar '.' w ++ ',' :: removeChar '.' f), _) = _
      rw [show removeChar '.' w = ds from hw, hplain (by decide) hf, hcommas hds]
    · -- the comma alone
      obtain rfl := hungrouped hgroups
      rw [if_neg (by simp [hgroups, hpoint]), hparts hcomma (hmark (by decide) hf),
        if_pos (by simp [hlen]), hcommas hds]
  | english =>
    have hpoint : '.' ∉ w := fun h => by rcases hwhole _ h with h | h <;> cases h
    have hcomma : ',' ∉ f := hmark (by decide) hf
    have hmem : '.' ∈ w ++ '.' :: f := List.mem_append_right _ (List.mem_cons_self ..)
    change separators (w ++ '.' :: f) localeHint = _
    simp only [separators, hmem, true_and, if_true]
    by_cases hgroups : ',' ∈ w
    · -- both marks occur, the point last
      have hlast : rfind ',' (w ++ '.' :: f) < rfind '.' (w ++ '.' :: f) := by
        rw [rfind_append_cons (w := w) (hmark (by decide) hf)]
        exact rfind_lt_of_mem hgroups (by simpa using hcomma)
      rw [if_pos (List.mem_append_left _ hgroups), if_pos hlast, removeChar, List.filter_append,
        List.filter_cons_of_pos (by decide)]
      change (removeChar ',' w ++ '.' :: removeChar ',' f, _) = _
      rw [show removeChar ',' w = ds from hw, hplain (by decide) hf]
    · -- the point alone
      obtain rfl := hungrouped hgroups
      rw [if_neg (by simp [hgroups, hcomma]), if_neg (by simp [hgroups, hcomma]),
        hparts hpoint (hmark (by decide) hf), if_pos (by simp [hlen])]

end NormalizationService

/-! ## What is read back -/

theorem isDigit_of_mem_decimalText {w n : ℕ} {c : Char} (hc : c ∈ decimalText w n) :
    c.isDigit = true := by
  induction w generalizing n with
  | zero => cases hc
  | succ w ih =>
    rcases List.mem_append.mp hc with hc | hc
    · exact ih hc
    · obtain rfl := List.mem_singleton.mp hc
      have hdigit : ∀ i < 10, (Nat.digitChar i).isDigit = true := by decide
      exact hdigit _ (Nat.mod_lt _ (by omega))

/-- The digits of a number and two more write the hundredths. -/
theorem ofDigitChars_hundredths (n : ℕ) :
    Nat.ofDigitChars 10 (Nat.toDigits 10 (n / 100) ++ decimalText 2 n) 0 = n := by
  have htext : decimalText 2 n = [Nat.digitChar (n / 10 % 10), Nat.digitChar (n % 10)] := rfl
  rw [Nat.ofDigitChars_append, Nat.ofDigitChars_ten_toDigits, htext,
    Nat.ofDigitChars_cons_digitChar_of_lt_ten (Nat.mod_lt _ (by omega)),
    Nat.ofDigitChars_cons_digitChar_of_lt_ten (Nat.mod_lt _ (by omega)), Nat.ofDigitChars_nil]
  omega

theorem mem_of_mem_strip {U : CharClass} {s : List Char} {c : Char} (h : c ∈ strip U s) : c ∈ s := by
  have h := (List.dropWhile_suffix _).subset (List.mem_reverse.mp h)
  exact (List.dropWhile_suffix _).subset (List.mem_reverse.mp h)

namespace Rendering

variable {U : CharClass} {T : TextCase} {r : Rendering U} {n : ℕ} {c : Char}

theorem groupMark_isDigit (v : Convention) : v.groupMark.isDigit = false := by cases v <;> rfl

/-- The whole part is its digits and the marks between them. -/
theorem removeChar_whole :
    removeChar r.convention.groupMark (r.whole n) = Nat.toDigits 10 (n / 100) := by
  have hnot : r.convention.groupMark ∉ Nat.toDigits 10 (n / 100) := by
    intro h
    have hdigit := Nat.isDigit_of_mem_toDigits (by omega) (by omega) h
    rw [groupMark_isDigit] at hdigit
    cases hdigit
  rw [whole]
  split
  · exact removeChar_groupThousands hnot
  · refine List.filter_eq_self.mpr fun c hc => bne_iff_ne.mpr ?_
    rintro rfl
    exact hnot hc

/-- A figure is digits and separators. -/
theorem figureChar_of_mem (hc : c ∈ r.figure n) : figureChar c = true := by
  have hdigit : c.isDigit = true → figureChar c = true := fun h => by simp [figureChar, h]
  rcases List.mem_append.mp hc with hc | hc
  · by_cases hmark : c = r.convention.groupMark
    · rw [hmark]
      cases r.convention <;> rfl
    · have hmem : c ∈ removeChar r.convention.groupMark (r.whole n) :=
        List.mem_filter.mpr ⟨hc, bne_iff_ne.mpr hmark⟩
      rw [removeChar_whole] at hmem
      exact hdigit (Nat.isDigit_of_mem_toDigits (by omega) (by omega) hmem)
  · rcases List.mem_cons.mp hc with rfl | hc
    · cases r.convention <;> rfl
    · exact hdigit (isDigit_of_mem_decimalText hc)

/-- A character that a figure or its decoration is made of. -/
def printedChar (c : Char) : Bool := figureChar c || c == '-' || c == '(' || c == ')' || c == '%'

theorem printedChar_cases (h : printedChar c = true) :
    c.isDigit = true ∨ c = '.' ∨ c = ',' ∨ c = '-' ∨ c = '(' ∨ c = ')' ∨ c = '%' := by
  simpa [printedChar, figureChar, or_assoc] using h

/-- Such a character is ASCII, and no letter. -/
theorem ascii_of_printedChar (h : printedChar c = true) : c.toNat < 128 ∧ c.isAlpha = false := by
  rcases printedChar_cases h with h | h
  · have hlt := toNat_of_isDigit h
    refine ⟨by omega, Bool.eq_false_iff.mpr fun halpha => ?_⟩
    have hge : 65 ≤ c.toNat := by
      rcases Bool.or_eq_true_iff.mp halpha with h | h
      · exact (toNat_of_isUpper h).1
      · exact Nat.le_trans (by decide) (toNat_of_isLower h).1
    omega
  · rcases h with rfl | rfl | rfl | rfl | rfl | rfl <;> decide

theorem space_printedChar (hU : U.KnowsAscii) (h : printedChar c = true) : U.space c = false := by
  rcases printedChar_cases h with h | h
  · exact hU.space_digitOrPoint (by simp [digitOrPoint, h])
  · rcases h with rfl | rfl | rfl | rfl | rfl | rfl <;> exact hU.space_eq _ (by decide)

/-- A rendering is blanks and such characters. -/
theorem space_or_printedChar (hc : c ∈ r.text n) : U.space c = true ∨ printedChar c = true := by
  have hblank : ∀ c ∈ r.left ++ r.gap ++ r.right, U.space c = true ∨ printedChar c = true :=
    fun c hc => .inl (r.blank c hc)
  have hgap : ∀ c ∈ r.gap, U.space c = true ∨ printedChar c = true := fun c hc =>
    hblank c (List.mem_append_left _ (List.mem_append_right _ hc))
  have hfigure : ∀ c ∈ r.figure n, U.space c = true ∨ printedChar c = true := fun c hc =>
    .inr (by simp [printedChar, figureChar_of_mem hc])
  have hdecorated : ∀ c ∈ r.decorated n, U.space c = true ∨ printedChar c = true := by
    rw [decorated]
    split
    · exact PrintedSign.forall_around (.inr (by decide)) (.inr (by decide)) (.inr (by decide))
        (PercentSign.forall_around (.inr (by decide)) hgap hfigure _) _
    · exact PercentSign.forall_around (.inr (by decide)) hgap
        (PrintedSign.forall_around (.inr (by decide)) (.inr (by decide)) (.inr (by decide))
          hfigure _) _
  rcases List.mem_append.mp hc with hc | hc
  · rcases List.mem_append.mp hc with hc | hc
    · exact hblank c (List.mem_append_left _ (List.mem_append_left _ hc))
    · exact hdecorated c hc
  · exact hblank c (List.mem_append_right _ hc)

/-- **What is left** without blanks and percent signs: the figure and its sign. -/
theorem bare_text (hU : U.KnowsAscii) :
    NormalizationService.bare U (r.text n) = r.sign.around (r.figure n) := by
  have hdrop : ∀ c ∈ r.left ++ r.gap ++ r.right, (c != '%' && !U.space c) = false := fun c hc => by
    simp [r.blank c hc]
  have hkeep : ∀ c, printedChar c = true → c ≠ '%' → (c != '%' && !U.space c) = true := by
    intro c hc hne
    simp [space_printedChar hU hc, hne]
  have hfigure : (r.figure n).filter (fun c => c != '%' && !U.space c) = r.figure n := by
    refine List.filter_eq_self.mpr fun c hc => hkeep c ?_ ?_
    · simp [printedChar, figureChar_of_mem hc]
    · rintro rfl
      cases figureChar_of_mem hc
  have hdecorated : (r.decorated n).filter (fun c => c != '%' && !U.space c) =
      r.sign.around (r.figure n) := by
    have hminus := hkeep '-' (by decide) (by decide)
    have hleft := hkeep '(' (by decide) (by decide)
    have hright := hkeep ')' (by decide) (by decide)
    have hgap : ∀ c ∈ r.gap, (c != '%' && !U.space c) = false := fun c hc =>
      hdrop c (List.mem_append_left _ (List.mem_append_right _ hc))
    rw [decorated]
    split
    · rw [PrintedSign.filter_around hminus hleft hright,
        PercentSign.filter_around (by simp) hgap, hfigure]
    · rw [PercentSign.filter_around (by simp) hgap,
        PrintedSign.filter_around hminus hleft hright, hfigure]
  have hnil : ∀ l : List Char, (∀ c ∈ l, (c != '%' && !U.space c) = false) →
      l.filter (fun c => c != '%' && !U.space c) = [] := fun l hl =>
    List.filter_eq_nil_iff.mpr fun c hc => by simp only [hl c hc, Bool.false_eq_true, not_false_eq_true]
  rw [NormalizationService.bare, text, List.filter_append, List.filter_append, hdecorated,
    hnil r.left fun c hc => hdrop c (List.mem_append_left _ (List.mem_append_left _ hc)),
    hnil r.right fun c hc => hdrop c (List.mem_append_right _ hc), List.nil_append, List.append_nil]
  refine removeYuzde_of_not_mem fun c hc => ?_
  have hchar : printedChar c = true := by
    refine PrintedSign.forall_around (P := fun c => printedChar c = true) (by decide) (by decide)
      (by decide) ?_ _ c hc
    exact fun c hc => by simp [printedChar, figureChar_of_mem hc]
  constructor <;> rintro rfl <;> cases hchar

/-- Letters do not occur in a rendering. -/
theorem not_mem_text_of_isAlpha (hU : U.KnowsAscii) {c : Char}
    (hc : c.toNat < 128 ∧ c.isAlpha = true ∧ CharClass.ascii.space c = false) : c ∉ r.text n := by
  intro h
  rcases space_or_printedChar h with h | h
  · rw [hU.space_eq c hc.1, hc.2.2] at h
    cases h
  · rw [(ascii_of_printedChar h).2] at hc
    cases hc.2.1

/-- The decimal mark stands in every rendering. -/
theorem decimalMark_mem (hU : U.KnowsAscii) :
    r.convention.decimalMark ∈ strip U (r.text n) := by
  have hfigure : r.convention.decimalMark ∈ r.figure n :=
    List.mem_append_right _ (List.mem_cons_self ..)
  have hspace : U.space r.convention.decimalMark = false :=
    space_printedChar hU (by simp [printedChar, figureChar_of_mem hfigure])
  have hbare : r.convention.decimalMark ∈ NormalizationService.bare U (r.text n) := by
    rw [bare_text hU]
    cases r.sign <;> simp [PrintedSign.around, hfigure]
  exact mem_strip hspace
    (List.mem_of_mem_filter (NormalizationService.mem_of_mem_removeYuzde hbare))

/-- A rendering has no case. -/
theorem lower_text (hT : T.KeepsCaseless U) :
    T.lower (strip U (r.text n)) = strip U (r.text n) := by
  refine hT.lower_eq _ fun c hc => ?_
  exact (space_or_printedChar (mem_of_mem_strip hc)).imp id ascii_of_printedChar

/-- No rendering is filtered out. -/
theorem not_filtered (hU : U.KnowsAscii) (hT : T.KeepsCaseless U) :
    ¬ NormalizationService.Filtered U T (r.text n) := by
  have hletter : ∀ {c : Char} {l : List Char},
      c.toNat < 128 ∧ c.isAlpha = true ∧ CharClass.ascii.space c = false → c ∈ l →
      ¬ l <:+: strip U (r.text n) := fun hc hl h =>
    not_mem_text_of_isAlpha hU hc (mem_of_mem_strip (h.subset hl))
  have hmark := decimalMark_mem (r := r) (n := n) hU
  rw [NormalizationService.Filtered, lower_text hT]
  rintro (h | h | h | h | h)
  · rw [h] at hmark
    cases hmark
  · have hnull : ∀ w ∈ NormalizationService.nullIndicators, '.' ∉ w ∧ ',' ∉ w := by decide
    cases hv : r.convention with
    | turkish =>
      rw [hv] at hmark
      exact (hnull _ h).2 hmark
    | english =>
      rw [hv] at hmark
      exact (hnull _ h).1 hmark
  · obtain ⟨m, hm⟩ := Option.isSome_iff_exists.mp h
    obtain ⟨hpart, w, _, rfl, -, e, _, rfl, ⟨c, rfl, hc⟩, -⟩ := Regex.lang_of_search hm
    obtain rfl := beq_iff_eq.mp hc
    exact hletter (c := 'e') (by decide) (by simp) hpart
  · exact hletter (c := 'n') (by decide) (by decide) h
  · exact hletter (c := 'i') (by decide) (by decide) h

/-- A rendering says that it is a percentage exactly if it has the sign. -/
theorem saysPercent_text (hU : U.KnowsAscii) (hT : T.KeepsCaseless U) :
    NormalizationService.saysPercent U T (r.text n) = decide (r.percent ≠ .absent) := by
  have hspace : U.space '%' = false := space_printedChar hU (by decide)
  have hblank : ∀ {c : Char}, c ∈ r.left ++ r.gap ++ r.right → c ≠ '%' := by
    rintro c hc rfl
    rw [r.blank _ hc] at hspace
    cases hspace
  have hgap : '%' ∉ r.gap := fun h =>
    hblank (List.mem_append_left _ (List.mem_append_right _ h)) rfl
  have hfigure : '%' ∉ r.figure n := fun h => by cases figureChar_of_mem h
  have hdecorated : '%' ∈ r.decorated n ↔ r.percent ≠ .absent := by
    rw [decorated]
    split
    · rw [PrintedSign.percent_mem_around, PercentSign.percent_mem_around hgap, or_iff_left hfigure]
    · rw [PercentSign.percent_mem_around hgap, PrintedSign.percent_mem_around, or_iff_left hfigure]
  have htext : '%' ∈ r.text n ↔ '%' ∈ r.decorated n := by
    have hleft : '%' ∉ r.left := fun h =>
      hblank (List.mem_append_left _ (List.mem_append_left _ h)) rfl
    have hright : '%' ∉ r.right := fun h => hblank (List.mem_append_right _ h) rfl
    simp [text, hleft, hright]
  have hword : ¬ "yüzde".toList <:+: strip U (r.text n) := fun h =>
    not_mem_text_of_isAlpha hU (c := 'y') (by decide)
      (mem_of_mem_strip (h.subset (by decide)))
  have hmem : '%' ∈ strip U (r.text n) ↔ r.percent ≠ .absent :=
    ⟨fun h => hdecorated.mp (htext.mp (mem_of_mem_strip h)),
      fun h => mem_strip hspace (htext.mpr (hdecorated.mpr h))⟩
  rw [NormalizationService.saysPercent, lower_text hT, decide_eq_false hword, Bool.or_false,
    List.contains_eq_mem]
  exact decide_eq_decide.mpr hmem

/-- The sign is taken off the figure. -/
theorem takeNegative_around (hU : U.KnowsAscii) {s : List Char}
    (hs : ∀ c ∈ s, figureChar c = true) (σ : PrintedSign) :
    NormalizationService.takeNegative U (σ.around s) = (σ.negative, s) := by
  have hspace : ∀ c ∈ σ.around s, U.space c = false := by
    refine PrintedSign.forall_around (space_printedChar hU (by decide))
      (space_printedChar hU (by decide)) (space_printedChar hU (by decide)) (fun c hc => ?_) σ
    exact space_printedChar hU (by simp [printedChar, hs c hc])
  have hhead : ∀ m, figureChar m = false → s.head? ≠ some m := by
    intro m hm h
    rw [hs m (List.mem_of_mem_head? h)] at hm
    cases hm
  rw [NormalizationService.takeNegative_eq hspace]
  cases σ with
  | positive =>
    change (if s.head? = some '(' ∧ s.getLast? = some ')' then _ else
      if s.head? = some '-' then _ else (false, s)) = (false, s)
    rw [if_neg fun h => hhead '(' (by decide) h.1, if_neg (hhead '-' (by decide))]
  | minus => rfl
  | parentheses =>
    have hlast : ('(' :: (s ++ [')'])).getLast? = some ')' := by simp [List.getLast?_cons]
    have hbody : (s ++ [')']).dropLast = s := List.dropLast_concat
    change (if ('(' :: (s ++ [')'])).head? = some '(' ∧ ('(' :: (s ++ [')'])).getLast? = some ')'
      then (true, (s ++ [')']).dropLast) else _) = (true, s)
    rw [if_pos ⟨rfl, hlast⟩, hbody]

end Rendering

namespace NormalizationService

open Rendering

variable {U : CharClass} {T : TextCase}

/-- **A printed amount is read back exactly**, with its sign, as a percentage if it was
printed as one, and without a warning. -/
theorem parse_rendering (hU : U.KnowsAscii) (hT : T.KeepsCaseless U) (r : Rendering U) {n : ℕ}
    (hn : n < 10 ^ 28) (localeHint : Option String) :
    parseFinancialDecimal U T (r.text n) localeHint =
      .ok ⟨some (.finite (signedBy r.sign.negative (n / 100))), decide (r.percent ≠ .absent),
        []⟩ := by
  have hwhole : ∀ c ∈ Nat.toDigits 10 (n / 100), c.isDigit = true := fun c hc =>
    Nat.isDigit_of_mem_toDigits (by omega) (by omega) hc
  have hdecimals : ∀ c ∈ decimalText 2 n, c.isDigit = true := fun c => isDigit_of_mem_decimalText
  have hseparators : separators (r.figure n) localeHint =
      (Nat.toDigits 10 (n / 100) ++ '.' :: decimalText 2 n, []) :=
    separators_amount removeChar_whole hwhole hdecimals (length_decimalText 2 n) localeHint
  have hlen : (Nat.toDigits 10 (n / 100) ++ decimalText 2 n).length ≤ 28 := by
    have hlt : n / 100 < 10 ^ 26 := by omega
    have hle := (Nat.length_toDigits_le_iff (by omega) (by omega)).mpr hlt
    rw [List.length_append, length_decimalText]
    omega
  have hne : Nat.toDigits 10 (n / 100) ++ decimalText 2 n ≠ [] := by
    intro h
    have hlength := congrArg List.length (List.append_eq_nil_iff.mp h).2
    rw [length_decimalText] at hlength
    cases hlength
  have hvalue := signedDecimal_point hU hwhole hdecimals hne hlen r.sign.negative
  rw [ofDigitChars_hundredths, length_decimalText] at hvalue
  rw [parse_of_not_filtered (not_filtered hU hT), bare_text hU,
    takeNegative_around hU fun c => figureChar_of_mem, hseparators, hvalue, saysPercent_text hU hT]
  norm_num

theorem parse_rendering_turkishPercent :
    parseFinancialDecimal .ascii .ascii (turkishPercent.text 123456789) none =
      .ok ⟨some (.finite (signedBy true ((123456789 : ℕ) / 100))), true, []⟩ :=
  parse_rendering CharClass.knowsAscii_ascii TextCase.keepsCaseless_ascii turkishPercent
    (by norm_num) none

end NormalizationService

end FinanceIntelligence
