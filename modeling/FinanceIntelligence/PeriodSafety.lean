import FinanceIntelligence.PeriodExpression
import FinanceIntelligence.Raising
import FinanceIntelligence.WordPairs

/-!
# Reading periods without a failure

`parse_period_keys` (period_expression.py) looks months up in a table, and a month that the
pattern takes in a spelling that the table does not have raises a `KeyError`. The patterns
ignore case, and for `re` the dotless ı is an i in another case: *nısan*, *hazıran* and
*ekım* match, and are in no table.

* `writtenKey_of_mem` — every key is **written in the text**: a year of four digits, or of two
  behind a quarter mark, and a quarter from one to four;
* `parsePeriodKeys_isOk_iff` — a text **is read** exactly if no month stands next to a year in
  such a spelling;
* `parsePeriodKeys_fails` — *nısan 2026* **fails**.
-/

namespace FinanceIntelligence

namespace PeriodExpression

open Pattern

variable {R : PeriodText}

/-! ## Years -/

/-- Four digits, of which the first two are 19 or 20. -/
def IsYear (R : PeriodText) (y : List Char) : Prop :=
  ∃ c d, (y = ['1', '9', c, d] ∨ y = ['2', '0', c, d]) ∧ R.isDigit c = true ∧ R.isDigit d = true

theorem isDigit_of_ascii {c : Char} (hc : c.isDigit = true) (hlow : c.toNat < 128) :
    R.isDigit c = true := by
  rw [PeriodText.isDigit, (R.ascii c hlow).2.1]
  simp [CharClass.ascii, hc]

theorem IsYear.digits {y : List Char} (h : IsYear R y) : ∀ c ∈ y, R.isDigit c = true := by
  obtain ⟨c, d, hy, hc, hd⟩ := h
  have h0 : R.isDigit '0' = true := isDigit_of_ascii (by decide) (by decide)
  have h1 : R.isDigit '1' = true := isDigit_of_ascii (by decide) (by decide)
  have h2 : R.isDigit '2' = true := isDigit_of_ascii (by decide) (by decide)
  have h9 : R.isDigit '9' = true := isDigit_of_ascii (by decide) (by decide)
  rcases hy with rfl | rfl
  · simp [h1, h9, hc, hd]
  · simp [h2, h0, hc, hd]

theorem word_of_isDigit {c : Char} (h : R.isDigit c = true) : R.chars.word c = true :=
  R.chars.word_of_digit c h

theorem mem_oneOf {words : List (List Char)} {x y : Spot} {u : List Char} :
    (u, y) ∈ oneOf words x ↔
      x.Leads u y ∧ ∃ word ∈ words, List.Forall₂ (fun c d => anyCase c d = true) word u := by
  induction words with
  | nil => exact iff_of_false List.not_mem_nil (by simp)
  | cons word words ih =>
    rw [oneOf, mem_alt, ih, text, mem_chars, List.forall₂_map_left_iff, List.exists_mem_cons_iff,
      and_or_left]

theorem mem_year {x y : Spot} {u : List Char} : (u, y) ∈ year R x ↔ x.Leads u y ∧ IsYear R u := by
  have hcentury : ∀ {v : List Char}, (∃ word ∈ [['1', '9'], ['2', '0']],
      List.Forall₂ (fun c d => anyCase c d = true) word v) ↔ v = ['1', '9'] ∨ v = ['2', '0'] := by
    intro v
    simp [List.forall₂_cons_left_iff, anyCase]
  simp only [year, mem_bind, mem_oneOf, mem_one, mem_pure, hcentury]
  constructor
  · rintro ⟨v, z, ⟨hv, hor⟩, c, z', ⟨hc, hcd⟩, d, z'', ⟨hd, hdd⟩, rfl, rfl⟩
    refine ⟨by simpa using (hv.trans hc).trans hd, c, d, ?_, hcd, hdd⟩
    rcases hor with rfl | rfl
    exacts [.inl rfl, .inr rfl]
  · rintro ⟨hleads, c, d, hu, hcd, hdd⟩
    obtain ⟨v, hv, rfl⟩ : ∃ v, (v = ['1', '9'] ∨ v = ['2', '0']) ∧ u = v ++ ([c] ++ [d]) := by
      rcases hu with rfl | rfl
      exacts [⟨_, .inl rfl, rfl⟩, ⟨_, .inr rfl, rfl⟩]
    obtain ⟨z, hz, hleads⟩ := Spot.leads_append_iff.mp hleads
    obtain ⟨z', hz', hleads⟩ := Spot.leads_append_iff.mp hleads
    exact ⟨v, z, ⟨hz, hv⟩, c, z', ⟨hz', hcd⟩, d, y, ⟨hleads, hdd⟩, rfl, rfl⟩

/-! ## Months -/

/-- A small letter of the patterns. -/
def isPatternLetter (c : Char) : Bool :=
  ('a' ≤ c && c ≤ 'z') || ['ç', 'ğ', 'ı', 'ö', 'ş', 'ü'].contains c

theorem word_of_ascii {c : Char} (hlow : c.toNat < 128) (hc : CharClass.ascii.word c = true) :
    R.chars.word c = true := by
  rw [(R.ascii c hlow).1, hc]

/-- What `re.IGNORECASE` takes for a letter is a word character. -/
theorem word_of_anyCase {c d : Char} (hc : isPatternLetter c = true) (h : anyCase c d = true) :
    R.chars.word d = true := by
  have hascii : ∀ n < 128, ('a' ≤ Char.ofNat n && Char.ofNat n ≤ 'z') = true →
      ([Char.ofNat n, (Char.ofNat n).toUpper].all fun e =>
        decide (e.toNat < 128) && CharClass.ascii.word e) = true := by
    decide +kernel
  unfold anyCase at h
  split at h <;> simp only [Bool.or_eq_true, beq_iff_eq] at h
  case h_10 hi hı hs hk hç hğ hö hş hü =>
    -- the other letters are those of ASCII
    have hsmall : ('a' ≤ c && c ≤ 'z') = true := by
      simp only [isPatternLetter, Bool.or_eq_true, List.contains_iff_mem] at hc
      refine hc.resolve_right fun hmem => ?_
      simp only [List.mem_cons, List.not_mem_nil, or_false] at hmem
      rcases hmem with hmem | hmem | hmem | hmem | hmem | hmem
      exacts [hç hmem, hğ hmem, hı hmem, hö hmem, hş hmem, hü hmem]
    have hlow : c.toNat < 128 := by
      simp only [Bool.and_eq_true, decide_eq_true_eq] at hsmall
      have hz : c.toNat ≤ 'z'.toNat := hsmall.2
      exact Nat.lt_of_le_of_lt hz (by decide)
    have hall := hascii c.toNat hlow
    rw [Char.ofNat_toNat] at hall
    have hd := List.all_eq_true.mp (hall hsmall) d (by simpa using h)
    simp only [Bool.and_eq_true, decide_eq_true_eq] at hd
    exact word_of_ascii hd.1 hd.2
  case h_1 | h_2 =>
    rcases h with ((rfl | rfl) | rfl) | rfl
    exacts [word_of_ascii (by decide) (by decide), word_of_ascii (by decide) (by decide),
      R.word_letter _ (by decide), R.word_letter _ (by decide)]
  case h_3 | h_4 =>
    rcases h with (rfl | rfl) | rfl
    exacts [word_of_ascii (by decide) (by decide), word_of_ascii (by decide) (by decide),
      R.word_letter _ (by decide)]
  all_goals
    rcases h with rfl | rfl
    exacts [R.word_letter _ (by decide), R.word_letter _ (by decide)]

theorem forall_of_forall₂ {P Q : Char → Prop} {word u : List Char} {T : Char → Char → Prop}
    (h : List.Forall₂ T word u) (hword : ∀ c ∈ word, P c) (hstep : ∀ c d, P c → T c d → Q d) :
    ∀ d ∈ u, Q d := by
  induction h with
  | nil => exact fun d hd => absurd hd List.not_mem_nil
  | cons hcd _ ih =>
    obtain ⟨hc, hrest⟩ := List.forall_mem_cons.mp hword
    exact List.forall_mem_cons.mpr ⟨hstep _ _ hc hcd, ih hrest⟩

/-- A month, in a spelling that the patterns take. -/
def IsMonth (m : List Char) : Prop :=
  ∃ name ∈ monthToQuarter.map (·.1), List.Forall₂ (fun c d => anyCase c d = true) name m

theorem IsMonth.ne_nil {m : List Char} (h : IsMonth m) : m ≠ [] := by
  rintro rfl
  obtain ⟨name, hname, hspelt⟩ := h
  obtain rfl := List.forall₂_nil_right_iff.mp hspelt
  exact absurd hname (by decide)

theorem IsMonth.word {m : List Char} (h : IsMonth m) : ∀ c ∈ m, R.chars.word c = true := by
  obtain ⟨name, hname, hspelt⟩ := h
  have hletters : (monthToQuarter.map (·.1)).all fun name => name.all isPatternLetter := by
    decide
  refine forall_of_forall₂ hspelt (P := fun c => isPatternLetter c = true) ?_
    fun _ _ => word_of_anyCase
  exact List.all_eq_true.mp (List.all_eq_true.mp hletters name hname)

/-- A month does not start like a year. -/
theorem IsMonth.head_ne {m y : List Char} (h : IsMonth m) (hy : IsYear R y) :
    m.head? ≠ y.head? := by
  obtain ⟨name, hname, hspelt⟩ := h
  have hheads : (monthToQuarter.map (·.1)).all fun name =>
      name.head?.all fun c => !anyCase c '1' && !anyCase c '2' := by decide
  have hhead := List.all_eq_true.mp hheads name hname
  intro heq
  obtain ⟨c, d, hy, -⟩ := hy
  cases hspelt with
  | nil => rcases hy with rfl | rfl <;> cases heq
  | cons hfirst _ =>
    simp only [List.head?_cons, Option.all_some, Bool.and_eq_true, Bool.not_eq_true'] at hhead
    rcases hy with rfl | rfl
    · rw [Option.some.inj heq, hhead.1] at hfirst
      cases hfirst
    · rw [Option.some.inj heq, hhead.2] at hfirst
      cases hfirst

theorem IsYear.ne_nil {y : List Char} (h : IsYear R y) : y ≠ [] := by
  obtain ⟨c, d, rfl | rfl, -⟩ := h
  exacts [List.cons_ne_nil _ _, List.cons_ne_nil _ _]

theorem IsYear.word {y : List Char} (h : IsYear R y) : ∀ c ∈ y, R.chars.word c = true :=
  fun c hc => word_of_isDigit (h.digits c hc)

theorem mem_month {x y : Spot} {m : List Char} : (m, y) ∈ month x ↔ x.Leads m y ∧ IsMonth m :=
  mem_oneOf

/-- A month and a year. -/
theorem monthThenYear_findsPairs :
    FindsPairs R.chars IsMonth (IsYear R) (fun m y => (y, m)) (monthThenYear R) where
  mem_iff {x y a} := by
    simp only [monthThenYear, mem_bind, mem_bound, mem_month, mem_many1, mem_year, mem_pure]
    constructor
    · rintro ⟨_, _, ⟨rfl, hx⟩, m, z, ⟨hm, hmonth⟩, b, z', ⟨hb, hne, hspace⟩, v, z'',
        ⟨hv, hyear⟩, _, _, ⟨rfl, hy⟩, rfl, rfl⟩
      exact ⟨m, b, v, rfl, hmonth, hyear, hne, hspace, hm.trans (hb.trans hv), hx, hy⟩
    · rintro ⟨m, b, v, rfl, hmonth, hyear, hne, hspace, hleads, hx, hy⟩
      obtain ⟨z, hm, hleads⟩ := Spot.leads_append_iff.mp hleads
      obtain ⟨z', hb, hv⟩ := Spot.leads_append_iff.mp hleads
      exact ⟨(), x, ⟨rfl, hx⟩, m, z, ⟨hm, hmonth⟩, b, z', ⟨hb, hne, hspace⟩, v, y, ⟨hv, hyear⟩,
        (), y, ⟨rfl, hy⟩, rfl, rfl⟩
  left hm := ⟨hm.ne_nil, hm.word⟩
  right hy := ⟨hy.ne_nil, hy.word⟩
  differ hm hy := hm.head_ne hy
  space_of_word := R.space_of_word _

/-- A year and a month. -/
theorem yearThenMonth_findsPairs :
    FindsPairs R.chars (IsYear R) IsMonth (fun y m => (y, m)) (yearThenMonth R) where
  mem_iff {x y a} := by
    simp only [yearThenMonth, mem_bind, mem_bound, mem_month, mem_many1, mem_year, mem_pure]
    constructor
    · rintro ⟨_, _, ⟨rfl, hx⟩, v, z, ⟨hv, hyear⟩, b, z', ⟨hb, hne, hspace⟩, m, z'',
        ⟨hm, hmonth⟩, _, _, ⟨rfl, hy⟩, rfl, rfl⟩
      exact ⟨v, b, m, rfl, hyear, hmonth, hne, hspace, hv.trans (hb.trans hm), hx, hy⟩
    · rintro ⟨v, b, m, rfl, hyear, hmonth, hne, hspace, hleads, hx, hy⟩
      obtain ⟨z, hv, hleads⟩ := Spot.leads_append_iff.mp hleads
      obtain ⟨z', hb, hm⟩ := Spot.leads_append_iff.mp hleads
      exact ⟨(), x, ⟨rfl, hx⟩, v, z, ⟨hv, hyear⟩, b, z', ⟨hb, hne, hspace⟩, m, y, ⟨hm, hmonth⟩,
        (), y, ⟨rfl, hy⟩, rfl, rfl⟩
  left hy := ⟨hy.ne_nil, hy.word⟩
  right hm := ⟨hm.ne_nil, hm.word⟩
  differ hy hm := (hm.head_ne hy).symm
  space_of_word := R.space_of_word _

/-! ## What the patterns capture -/

/-- The piece is the year that is captured, and the rest is as it should be. -/
def YearPiece {δ : Type} (R : PeriodText) (G : δ → Prop) (groups : List Char × δ)
    (w : List Char) : Prop :=
  w = groups.1 ∧ IsYear R groups.1 ∧ G groups.2

theorem YearPiece.ne_nil {δ : Type} {G : δ → Prop} {groups : List Char × δ} {w : List Char}
    (h : YearPiece R G groups w) : w ≠ [] := by
  rw [h.1]
  exact h.2.1.ne_nil

theorem yearThenQuarter_captures :
    Captures (yearThenQuarter R) (YearPiece R fun q => quarterDigit q = true) := by
  rintro x ⟨v, q⟩ y h
  simp only [yearThenQuarter, blanks, separator, mem_bind, mem_bound, mem_year, mem_many,
    mem_optOne, mem_one, mem_pure, Prod.mk.injEq] at h
  obtain ⟨_, _, ⟨rfl, -⟩, v, _, ⟨hv, hyear⟩, _, _, ⟨hb, -⟩, _, _, ⟨hs, -⟩, _, _, ⟨hb', -⟩, _, _,
    ⟨hm, -⟩, _, _, ⟨hb'', -⟩, q, _, ⟨hq, hqd⟩, _, _, ⟨rfl, -⟩, ⟨rfl, rfl⟩, rfl⟩ := h
  exact ⟨[], v, _, hv.trans (hb.trans (hs.trans (hb'.trans (hm.trans (hb''.trans hq))))), rfl,
    hyear, hqd⟩

theorem quarterLabelThenYear_captures :
    Captures (quarterLabelThenYear R) (YearPiece R fun q => quarterDigit q = true) := by
  rintro x ⟨v, q⟩ y h
  simp only [quarterLabelThenYear, blanks, separator, mem_bind, mem_bound, mem_year, mem_many,
    mem_optOne, mem_one, mem_pure, Prod.mk.injEq] at h
  obtain ⟨_, _, ⟨rfl, -⟩, _, _, ⟨hm, -⟩, _, _, ⟨hb, -⟩, q, _, ⟨hq, hqd⟩, _, _, ⟨hb', -⟩, _, _,
    ⟨hs, -⟩, _, _, ⟨hb'', -⟩, v, _, ⟨hv, hyear⟩, _, _, ⟨rfl, -⟩, ⟨rfl, rfl⟩, rfl⟩ := h
  exact ⟨_, v, [], ((hm.trans (hb.trans (hq.trans (hb'.trans (hs.trans hb''))))).trans hv).trans
    (.refl _), rfl, hyear, hqd⟩

/-- Two digits behind a quarter mark. -/
def ShortYearPiece (R : PeriodText) (groups : List Char × Char) (w : List Char) : Prop :=
  ∃ k b c d, mark k = true ∧ (∀ e ∈ b, R.chars.space e = true) ∧ R.isDigit c = true ∧
    R.isDigit d = true ∧ groups.1 = [c, d] ∧ w = k :: (b ++ [c, d]) ∧ quarterDigit groups.2 = true

theorem quarterThenYear_captures :
    Captures (quarterThenYear R) fun groups w =>
      YearPiece R (fun q => quarterDigit q = true) groups w ∨ ShortYearPiece R groups w := by
  rintro x ⟨v, q⟩ y h
  simp only [quarterThenYear, blanks, mem_bind, mem_bound, mem_year, mem_many, mem_optOne, mem_one,
    mem_alt, mem_chars, List.forall₂_cons_left_iff, List.forall₂_nil_left_iff, mem_pure,
    Prod.mk.injEq] at h
  obtain ⟨_, _, ⟨rfl, -⟩, _, _, ⟨ho, -⟩, _, _, ⟨hb, -⟩, q, _, ⟨hq, hqd⟩, _, _, ⟨hb', -⟩, k, _,
    ⟨hm, hk⟩, b, _, ⟨hb'', hblank⟩, v, _, hv, _, _, ⟨rfl, -⟩, ⟨rfl, rfl⟩, rfl⟩ := h
  have hleft := ho.trans (hb.trans (hq.trans hb'))
  rcases hv with ⟨hv, hyear⟩ | ⟨hv, c, _, hc, ⟨d, _, hd, rfl, rfl⟩, rfl⟩
  · exact ⟨_, v, [], ((hleft.trans (hm.trans hb'')).trans hv).trans (.refl _),
      .inl ⟨rfl, hyear, hqd⟩⟩
  · exact ⟨_, k :: (b ++ [c, d]), [], (hleft.trans (hm.trans (hb''.trans hv))).trans (.refl _),
      .inr ⟨k, b, c, d, hk, hblank, hc, hd, rfl, rfl, hqd⟩⟩

theorem later_one {c : Char → Bool} : Later (one c) := fun h => ⟨_, (mem_one.mp h).1⟩

theorem later_ordinal : Later ordinal := by
  intro x w y h
  rcases mem_alt.mp h with h | h
  exacts [⟨w, (mem_chars.mp h).1⟩, ⟨w, (mem_oneOf.mp h).1⟩]

theorem later_group : Later (do let _ ← many1 R.chars.word; many1 R.chars.space) := by
  intro x a y h
  simp only [mem_bind, mem_many1] at h
  obtain ⟨_, _, ⟨hw, -⟩, hs, -⟩ := h
  exact ⟨_, hw.trans hs⟩

theorem yearThenWordQuarter_captures :
    Captures (yearThenWordQuarter R) (YearPiece R fun _ => True) := by
  rintro x ⟨v, w⟩ y h
  simp only [yearThenWordQuarter, blanks, text, mem_bind, mem_bound, mem_year, mem_many, mem_optOne,
    mem_chars, mem_pure, Prod.mk.injEq] at h
  obtain ⟨_, _, ⟨rfl, -⟩, v, _, ⟨hv, hyear⟩, _, _, ⟨rfl, -⟩, _, _, hfew, _, _, ⟨rfl, -⟩, w, _, hw,
    _, _, ⟨rfl, -⟩, _, _, ⟨hdot, -⟩, _, _, ⟨hb, -⟩, _, _, ⟨ht, -⟩, ⟨rfl, rfl⟩, rfl⟩ := h
  obtain ⟨_, hfew⟩ := later_one.few hfew
  obtain ⟨_, hw⟩ := later_ordinal hw
  exact ⟨[], v, _, hv.trans (hfew.trans (hw.trans (hdot.trans (hb.trans ht)))), rfl, hyear, trivial⟩

theorem wordQuarterThenYear_captures :
    Captures (wordQuarterThenYear R) (YearPiece R fun _ => True) := by
  rintro x ⟨v, w⟩ y h
  simp only [wordQuarterThenYear, blanks, text, mem_bind, mem_bound, mem_year, mem_many, mem_optOne,
    mem_chars, mem_pure, Prod.mk.injEq] at h
  obtain ⟨_, _, ⟨rfl, -⟩, w, _, hw, _, _, ⟨rfl, -⟩, _, _, ⟨hdot, -⟩, _, _, ⟨hb, -⟩, _, _, ⟨ht, -⟩,
    _, _, ⟨hword, -⟩, _, _, ⟨hb', -⟩, _, _, hfew, _, _, ⟨rfl, -⟩, v, _, ⟨hv, hyear⟩, _, _,
    ⟨rfl, -⟩, ⟨rfl, rfl⟩, rfl⟩ := h
  obtain ⟨_, hfew⟩ := later_group.few hfew
  obtain ⟨_, hw⟩ := later_ordinal hw
  exact ⟨_, v, [], ((hw.trans (hdot.trans (hb.trans (ht.trans (hword.trans (hb'.trans
    hfew)))))).trans hv).trans (.refl _), rfl, hyear, trivial⟩

theorem mem_oneOrTwoDigits {x y : Spot} {u : List Char} (h : (u, y) ∈ oneOrTwoDigits R x) :
    x.Leads u y := by
  simp only [oneOrTwoDigits, mem_bind, mem_one, mem_optOne, mem_pure] at h
  obtain ⟨_, _, ⟨hc, -⟩, _, _, ⟨hu, -⟩, rfl, rfl⟩ := h
  exact hc.trans hu

theorem ymd_captures : Captures (ymd R) (YearPiece R fun _ => True) := by
  rintro x ⟨v, m⟩ y h
  simp only [ymd, dateSeparator, mem_bind, mem_bound, mem_year, mem_one, mem_pure,
    Prod.mk.injEq] at h
  obtain ⟨_, _, ⟨rfl, -⟩, v, _, ⟨hv, hyear⟩, _, _, ⟨hs, -⟩, m, _, hm, _, _, ⟨hs', -⟩, _, _, hd, _,
    _, ⟨rfl, -⟩, ⟨rfl, rfl⟩, rfl⟩ := h
  exact ⟨[], v, _, hv.trans (hs.trans ((mem_oneOrTwoDigits hm).trans (hs'.trans
    (mem_oneOrTwoDigits hd)))), rfl, hyear, trivial⟩

theorem dmy_captures : Captures (dmy R) (YearPiece R fun _ => True) := by
  rintro x ⟨v, m⟩ y h
  simp only [dmy, dateSeparator, mem_bind, mem_bound, mem_year, mem_one, mem_pure,
    Prod.mk.injEq] at h
  obtain ⟨_, _, ⟨rfl, -⟩, _, _, hd, _, _, ⟨hs, -⟩, m, _, hm, _, _, ⟨hs', -⟩, v, _, ⟨hv, hyear⟩, _,
    _, ⟨rfl, -⟩, ⟨rfl, rfl⟩, rfl⟩ := h
  exact ⟨_, v, [], (((mem_oneOrTwoDigits hd).trans (hs.trans ((mem_oneOrTwoDigits hm).trans
    hs'))).trans hv).trans (.refl _), rfl, hyear, trivial⟩

theorem bareYear_captures : Captures (bareYear R) fun v w => w = v ∧ IsYear R v := by
  intro x v y h
  simp only [bareYear, mem_bind, mem_bound, mem_year, mem_pure] at h
  obtain ⟨_, _, ⟨rfl, -⟩, v, _, ⟨hv, hyear⟩, _, _, ⟨rfl, -⟩, rfl, rfl⟩ := h
  exact ⟨[], v, [], hv.trans (.refl _), rfl, hyear⟩

/-! ## Numbers -/

theorem int_quarterDigit {q : Char} (h : quarterDigit q = true) :
    1 ≤ R.int [q] ∧ R.int [q] ≤ 4 := by
  simp only [quarterDigit, Bool.and_eq_true, decide_eq_true_eq] at h
  have hlow : '1'.toNat ≤ q.toNat := h.1
  have hhigh : q.toNat ≤ '4'.toNat := h.2
  have hvalues : '1'.toNat = 49 ∧ '4'.toNat = 52 ∧ '0'.toNat = 48 ∧ '9'.toNat = 57 := by decide
  have hdigit : q.isDigit = true := Char.isDigit_iff_toNat.mpr (by omega)
  have hint : R.int [q] = q.toNat - 48 := by
    rw [PeriodText.int, List.foldl_cons, List.foldl_nil, (R.ascii q (by omega)).2.1]
    simp [CharClass.ascii, hdigit]
  omega

theorem int_two_digits {c d : Char} (hc : R.isDigit c = true) (hd : R.isDigit d = true) :
    R.int [c, d] ≤ 99 := by
  obtain ⟨m, hm⟩ := Option.isSome_iff_exists.mp hc
  obtain ⟨n, hn⟩ := Option.isSome_iff_exists.mp hd
  have hm' := R.chars.digit_lt c m hm
  have hn' := R.chars.digit_lt d n hn
  simp only [PeriodText.int, List.foldl_cons, List.foldl_nil, hm, hn, Option.getD_some]
  omega

theorem IsYear.lt_int {y : List Char} (h : IsYear R y) : 99 < R.int y := by
  obtain ⟨c, d, rfl | rfl, -⟩ := h
  · have h1 : R.chars.digit '1' = some 1 := (R.ascii '1' (by decide)).2.1
    have h9 : R.chars.digit '9' = some 9 := (R.ascii '9' (by decide)).2.1
    simp only [PeriodText.int, List.foldl_cons, List.foldl_nil, h1, h9, Option.getD_some]
    omega
  · have h2 : R.chars.digit '2' = some 2 := (R.ascii '2' (by decide)).2.1
    have h0 : R.chars.digit '0' = some 0 := (R.ascii '0' (by decide)).2.1
    simp only [PeriodText.int, List.foldl_cons, List.foldl_nil, h2, h0, Option.getD_some]
    omega

theorem quarter_of_lookup {table : List (List Char × ℕ)} {word : List Char} {q : ℕ}
    (htable : (table.all fun p => 1 ≤ p.2 && p.2 ≤ 4) = true) (h : table.lookup word = some q) :
    1 ≤ q ∧ q ≤ 4 := by
  obtain ⟨l, l', rfl, -⟩ := List.lookup_eq_some_iff.mp h
  have hmem := List.all_eq_true.mp htable (word, q) (by simp)
  simpa using hmem

/-! ## Back to the text -/

theorem exists_of_casefold_digits {digits : List Char} (hdigits : ∀ c ∈ digits, R.isDigit c = true)
    {source after : List Char} (h : R.casefold source = digits ++ after) :
    ∃ t, source = digits ++ t ∧ R.casefold t = after := by
  induction digits generalizing source with
  | nil => exact ⟨source, rfl, h⟩
  | cons d digits ih =>
    obtain ⟨hd, hall⟩ := List.forall_mem_cons.mp hdigits
    cases source with
    | nil => cases h
    | cons c source =>
      rw [PeriodText.casefold, List.flatMap_cons] at h
      obtain ⟨e, s, hs⟩ := List.exists_cons_of_ne_nil (R.caseFold_ne_nil c)
      rw [hs, List.cons_append] at h
      obtain ⟨rfl, hrest⟩ := List.cons.inj h
      obtain rfl := R.digit_caseFold c e (by rw [hs]; exact List.mem_cons_self) hd
      obtain rfl : s = [] := (List.cons.inj (hs.symm.trans (R.caseFold_digit e hd))).2
      obtain ⟨t, rfl, ht⟩ := ih hall hrest
      exact ⟨t, rfl, ht⟩

/-- **Digits of the folded text** are digits of the text. -/
theorem exists_of_casefold {digits : List Char} (hne : digits ≠ [])
    (hdigits : ∀ c ∈ digits, R.isDigit c = true) {source before after : List Char}
    (h : R.casefold source = before ++ (digits ++ after)) :
    ∃ s t, source = s ++ (digits ++ t) ∧ R.casefold s = before ∧ R.casefold t = after := by
  induction source generalizing before with
  | nil => simp [PeriodText.casefold, hne] at h
  | cons c source ih =>
    have hsplit := h
    rw [PeriodText.casefold, List.flatMap_cons] at hsplit
    rcases List.append_eq_append_iff.mp hsplit with ⟨r, rfl, hr⟩ | ⟨r, hfold, hr⟩
    · obtain ⟨s, t, rfl, rfl, ht⟩ := ih hr
      exact ⟨c :: s, t, rfl, List.flatMap_cons, ht⟩
    cases r with
    | nil =>
      obtain ⟨t, rfl, ht⟩ := exists_of_casefold_digits hdigits hr.symm
      exact ⟨[c], t, rfl, by rw [PeriodText.casefold, List.flatMap_singleton, hfold,
        List.append_nil], ht⟩
    | cons e r =>
      -- the digits start inside of what one character folds to, which is then a digit itself
      obtain ⟨d, digits', rfl⟩ := List.exists_cons_of_ne_nil hne
      obtain ⟨rfl, -⟩ := List.cons.inj hr
      have hd := (List.forall_mem_cons.mp hdigits).1
      obtain rfl := R.digit_caseFold c d (by rw [hfold]; simp) hd
      rw [R.caseFold_digit d hd] at hfold
      obtain rfl : before = [] := by
        cases before with
        | nil => rfl
        | cons _ before => simp at hfold
      obtain ⟨t, ht, hafter⟩ := exists_of_casefold_digits hdigits h
      exact ⟨[], t, ht, rfl, hafter⟩

/-! ## Keys -/

/-- The year is written in the text, in four digits that start with 19 or 20. -/
def FullYear (R : PeriodText) (source : List Char) (n : ℕ) : Prop :=
  ∃ y, y <:+: source ∧ IsYear R y ∧ n = R.int y

/-- The year is written in the text, in two digits behind a quarter mark. -/
def ShortYear (R : PeriodText) (source : List Char) (n : ℕ) : Prop :=
  ∃ s c d t k b, source = s ++ ([c, d] ++ t) ∧ R.isDigit c = true ∧ R.isDigit d = true ∧
    mark k = true ∧ (∀ e ∈ b, R.chars.space e = true) ∧ k :: b <:+ R.casefold s ∧
    n = 2000 + R.int [c, d]

/-- What a key may be. -/
structure WrittenKey (R : PeriodText) (source : List Char) (key : PeriodKey) : Prop where
  /-- the quarter is one of four -/
  quarter : ∀ q, key.quarter = some q → 1 ≤ q ∧ q ≤ 4
  /-- the year is written -/
  year : FullYear R source key.fiscalYear ∨ ShortYear R source key.fiscalYear

variable {source : List Char}

theorem fullYear_of_piece {y : List Char} (h : y <:+: R.casefold source) (hy : IsYear R y) :
    FullYear R source (R.int y) := by
  obtain ⟨before, after, h⟩ := h
  rw [List.append_assoc] at h
  obtain ⟨s, t, rfl, -, -⟩ := exists_of_casefold hy.ne_nil hy.digits h.symm
  exact ⟨y, ⟨s, t, List.append_assoc ..⟩, hy, rfl⟩

theorem shortYear_of_piece {c d k : Char} {b : List Char}
    (h : k :: (b ++ [c, d]) <:+: R.casefold source) (hk : mark k = true)
    (hb : ∀ e ∈ b, R.chars.space e = true) (hc : R.isDigit c = true) (hd : R.isDigit d = true) :
    ShortYear R source (2000 + R.int [c, d]) := by
  obtain ⟨before, after, h⟩ := h
  have hfold : R.casefold source = (before ++ k :: b) ++ ([c, d] ++ after) := by
    rw [← h]
    simp
  obtain ⟨s, t, rfl, hs, -⟩ := exists_of_casefold (List.cons_ne_nil c [d])
    (by simp [hc, hd]) hfold
  exact ⟨s, c, d, t, k, b, rfl, hc, hd, hk, hb, ⟨before, hs.symm⟩, rfl⟩

/-- A key with the year that a pattern captures. -/
theorem YearPiece.writtenKey {δ : Type} {G : δ → Prop} {groups : List Char × δ} {w : List Char}
    {q : ℕ} (h : YearPiece R G groups w) (hw : w <:+: R.casefold source) (hlow : 1 ≤ q)
    (hhigh : q ≤ 4) : WrittenKey R source ⟨R.int groups.1, some q⟩ where
  quarter q' hq' := by
    obtain rfl := Option.some.inj hq'
    exact ⟨hlow, hhigh⟩
  year := .inl (fullYear_of_piece (h.1 ▸ hw) h.2.1)

theorem ShortYearPiece.writtenKey {groups : List Char × Char} {w : List Char}
    (h : ShortYearPiece R groups w) (hw : w <:+: R.casefold source) :
    WrittenKey R source ⟨expandTwoDigitYear R groups.1, some (R.int [groups.2])⟩ := by
  obtain ⟨k, b, c, d, hk, hb, hc, hd, hgroups, rfl, hq⟩ := h
  have hyear : expandTwoDigitYear R groups.1 = 2000 + R.int [c, d] := by
    rw [expandTwoDigitYear, hgroups, if_neg (Nat.not_lt.mpr (int_two_digits hc hd))]
  refine ⟨fun q' hq' => ?_, .inr ?_⟩
  · obtain rfl := Option.some.inj hq'
    exact int_quarterDigit hq
  · rw [hyear]
    exact shortYear_of_piece hw hk hb hc hd

/-- The keys of years and quarter digits. -/
theorem writtenKey_of_mem_quarters {p : Pattern (List Char × Char)} {key : PeriodKey}
    (hp : Captures p (YearPiece R fun q => quarterDigit q = true))
    (h : key ∈ (p.finditer (R.casefold source)).map fun (y, q) => ⟨R.int y, some (R.int [q])⟩) :
    WrittenKey R source key := by
  obtain ⟨⟨y, q⟩, hmem, rfl⟩ := List.mem_map.mp h
  obtain ⟨w, hw, hpiece⟩ := hp.mem_finditer YearPiece.ne_nil hmem
  obtain ⟨hlow, hhigh⟩ := int_quarterDigit (R := R) hpiece.2.2
  exact hpiece.writtenKey hw hlow hhigh

/-- The keys of years and something that a quarter is made of. -/
theorem writtenKey_of_mem_filterMap {p : Pattern (List Char × List Char)} {key : PeriodKey}
    {f : List Char × List Char → Option PeriodKey} (hp : Captures p (YearPiece R fun _ => True))
    (hf : ∀ groups key, f groups = some key →
      ∃ q, key = ⟨R.int groups.1, some q⟩ ∧ 1 ≤ q ∧ q ≤ 4)
    (h : key ∈ (p.finditer (R.casefold source)).filterMap f) : WrittenKey R source key := by
  obtain ⟨groups, hmem, hkey⟩ := List.mem_filterMap.mp h
  obtain ⟨w, hw, hpiece⟩ := hp.mem_finditer YearPiece.ne_nil hmem
  obtain ⟨q, rfl, hlow, hhigh⟩ := hf groups key hkey
  exact hpiece.writtenKey hw hlow hhigh

theorem ordinalKey_eq_some (groups : List Char × List Char) (key : PeriodKey)
    (h : ordinalKey R groups = some key) :
    ∃ q, key = ⟨R.int groups.1, some q⟩ ∧ 1 ≤ q ∧ q ≤ 4 := by
  obtain ⟨q, hq, rfl⟩ := Option.map_eq_some_iff.mp h
  exact ⟨q, rfl, quarter_of_lookup (by decide) hq⟩

theorem dateKey_eq_some (groups : List Char × List Char) (key : PeriodKey)
    (h : dateKey R groups = some key) :
    ∃ q, key = ⟨R.int groups.1, some q⟩ ∧ 1 ≤ q ∧ q ≤ 4 := by
  rw [dateKey] at h
  split at h
  · rename_i hmonth
    obtain rfl := Option.some.inj h
    exact ⟨_, rfl, Nat.le_add_left 1 _, by omega⟩
  · cases h

theorem monthKey_eq_ok {groups : List Char × List Char} {key : PeriodKey} :
    monthKey R groups = .ok key ↔
      ∃ q, monthToQuarter.lookup groups.2 = some q ∧ key = ⟨R.int groups.1, some q⟩ := by
  rw [monthKey]
  split
  · rename_i q hq
    simp [hq, eq_comm]
  · rename_i hnone
    simp [hnone]

/-- The keys that need no month are **written in the text**. -/
theorem writtenKey_of_mem_plainKeys {key : PeriodKey} (h : key ∈ plainKeys R (R.casefold source)) :
    WrittenKey R source key := by
  simp only [plainKeys, List.mem_append] at h
  rcases h with (((((h | h) | h) | h) | h) | h) | h
  · exact writtenKey_of_mem_quarters yearThenQuarter_captures h
  · exact writtenKey_of_mem_quarters quarterLabelThenYear_captures h
  · obtain ⟨⟨y, q⟩, hmem, rfl⟩ := List.mem_map.mp h
    obtain ⟨w, hw, hpiece | hpiece⟩ := quarterThenYear_captures.mem_finditer
      (fun h => h.elim YearPiece.ne_nil fun ⟨_, _, _, _, _, _, _, _, _, hw, _⟩ => by simp [hw]) hmem
    · obtain ⟨hlow, hhigh⟩ := int_quarterDigit (R := R) hpiece.2.2
      have hyear : expandTwoDigitYear R y = R.int y := if_pos hpiece.2.1.lt_int
      simp only [hyear]
      exact hpiece.writtenKey hw hlow hhigh
    · exact hpiece.writtenKey hw
  · exact writtenKey_of_mem_filterMap yearThenWordQuarter_captures ordinalKey_eq_some h
  · exact writtenKey_of_mem_filterMap wordQuarterThenYear_captures ordinalKey_eq_some h
  · exact writtenKey_of_mem_filterMap ymd_captures dateKey_eq_some h
  · exact writtenKey_of_mem_filterMap dmy_captures dateKey_eq_some h

/-! ## Months that are in no table -/

/-- A month and a year stand side by side in the folded text, in this order or the other one,
and no word character touches them. -/
def MonthBesideYear (R : PeriodText) (source y m : List Char) : Prop :=
  IsYear R y ∧ IsMonth m ∧ ∃ b, b ≠ [] ∧ (∀ c ∈ b, R.chars.space c = true) ∧
    (StandsIn (apartFromWords R.chars) (m ++ (b ++ y)) (R.casefold source) ∨
      StandsIn (apartFromWords R.chars) (y ++ (b ++ m)) (R.casefold source))

/-- A month stands beside a year in a spelling that the table does not have. -/
def UnknownMonth (R : PeriodText) (source : List Char) : Prop :=
  ∃ y m, MonthBesideYear R source y m ∧ monthToQuarter.lookup m = none

/-- What the two patterns of months find. -/
theorem mem_months_iff {groups : List Char × List Char} :
    groups ∈ (monthThenYear R).finditer (R.casefold source) ∨
      groups ∈ (yearThenMonth R).finditer (R.casefold source) ↔
    MonthBesideYear R source groups.1 groups.2 := by
  rw [monthThenYear_findsPairs.mem_finditer_iff, yearThenMonth_findsPairs.mem_finditer_iff]
  constructor
  · rintro (⟨m, b, y, rfl, hm, hy, hb, hspace, h⟩ | ⟨y, b, m, rfl, hy, hm, hb, hspace, h⟩)
    exacts [⟨hy, hm, b, hb, hspace, .inl h⟩, ⟨hy, hm, b, hb, hspace, .inr h⟩]
  · rintro ⟨hy, hm, b, hb, hspace, h | h⟩
    exacts [.inl ⟨_, b, _, rfl, hm, hy, hb, hspace, h⟩, .inr ⟨_, b, _, rfl, hy, hm, hb, hspace, h⟩]

theorem MonthBesideYear.infix {y m : List Char} (h : MonthBesideYear R source y m) :
    y <:+: R.casefold source := by
  obtain ⟨-, -, b, -, -, h | h⟩ := h
  · exact List.IsInfix.trans ⟨m ++ b, [], by simp⟩ h.infix
  · exact List.IsInfix.trans ⟨[], b ++ m, by simp⟩ h.infix

theorem MonthBesideYear.ne_nil {y m : List Char} (h : MonthBesideYear R source y m) :
    source ≠ [] := by
  rintro rfl
  exact h.1.ne_nil (List.eq_nil_of_infix_nil h.infix)

/-- A month beside a year gives a written key. -/
theorem MonthBesideYear.writtenKey {groups : List Char × List Char} {key : PeriodKey}
    (h : MonthBesideYear R source groups.1 groups.2) (hkey : monthKey R groups = .ok key) :
    WrittenKey R source key := by
  obtain ⟨q, hq, rfl⟩ := monthKey_eq_ok.mp hkey
  obtain ⟨hlow, hhigh⟩ := quarter_of_lookup (by decide) hq
  exact YearPiece.writtenKey (G := fun _ => True) ⟨rfl, h.1, trivial⟩ h.infix hlow hhigh

/-- Reading a text, step by step. -/
theorem parsePeriodKeys_eq_ok {keys : List PeriodKey} (hne : source ≠ []) :
    parsePeriodKeys R source = .ok keys ↔ ∃ months months',
      ((monthThenYear R).finditer (R.casefold source)).mapM (monthKey R) = .ok months ∧
      ((yearThenMonth R).finditer (R.casefold source)).mapM (monthKey R) = .ok months' ∧
      keys = if plainKeys R (R.casefold source) ++ months ++ months' = [] then
          ((bareYear R).finditer (R.casefold source)).map fun y => ⟨R.int y, none⟩
        else plainKeys R (R.casefold source) ++ months ++ months' := by
  rw [parsePeriodKeys, if_neg hne]
  simp only [exceptBind_eq_ok]
  constructor
  · rintro ⟨months, hm, months', hm', h⟩
    refine ⟨months, months', hm, hm', ?_⟩
    split at h
    · rename_i hnil
      rw [if_pos hnil]
      exact (Except.ok.inj h).symm
    · rename_i hcons
      rw [if_neg hcons]
      exact (Except.ok.inj h).symm
  · rintro ⟨months, months', hm, hm', rfl⟩
    refine ⟨months, hm, months', hm', ?_⟩
    split <;> rfl

/-- A text **is read** exactly if no month stands beside a year in a spelling that the table
does not have. -/
theorem parsePeriodKeys_isOk_iff :
    (∃ keys, parsePeriodKeys R source = .ok keys) ↔ ¬ UnknownMonth R source := by
  rcases eq_or_ne source [] with rfl | hne
  · exact iff_of_true ⟨[], rfl⟩ fun ⟨_, _, h, _⟩ => h.ne_nil rfl
  have hmonths : (∃ keys, parsePeriodKeys R source = .ok keys) ↔
      ∀ groups : List Char × List Char, MonthBesideYear R source groups.1 groups.2 →
        ∃ key, monthKey R groups = .ok key := by
    simp only [parsePeriodKeys_eq_ok hne, ← mem_months_iff, or_imp, forall_and, ← mapM_isOk_iff]
    constructor
    · rintro ⟨_, months, months', hm, hm', -⟩
      exact ⟨⟨months, hm⟩, months', hm'⟩
    · rintro ⟨⟨months, hm⟩, months', hm'⟩
      exact ⟨_, months, months', hm, hm', rfl⟩
  rw [hmonths]
  constructor
  · rintro h ⟨y, m, hbeside, hnone⟩
    obtain ⟨key, hkey⟩ := h (y, m) hbeside
    obtain ⟨q, hq, -⟩ := monthKey_eq_ok.mp hkey
    rw [hnone] at hq
    cases hq
  · intro h groups hbeside
    cases hlookup : monthToQuarter.lookup groups.2 with
    | none => exact absurd ⟨_, _, hbeside, hlookup⟩ h
    | some q => exact ⟨_, monthKey_eq_ok.mpr ⟨q, hlookup, rfl⟩⟩

/-- Every key of a text is **written in the text**. -/
theorem writtenKey_of_mem {keys : List PeriodKey} (h : parsePeriodKeys R source = .ok keys) :
    ∀ key ∈ keys, WrittenKey R source key := by
  intro key hkey
  rcases eq_or_ne source [] with rfl | hne
  · obtain rfl := Except.ok.inj h
    exact absurd hkey List.not_mem_nil
  obtain ⟨months, months', hm, hm', rfl⟩ := (parsePeriodKeys_eq_ok hne).mp h
  split at hkey
  · obtain ⟨y, hy, rfl⟩ := List.mem_map.mp hkey
    obtain ⟨w, hw, rfl, hyear⟩ := bareYear_captures.mem_finditer
      (fun h => by rw [h.1]; exact h.2.ne_nil) hy
    refine ⟨fun q hq => ?_, .inl (fullYear_of_piece hw hyear)⟩
    cases hq
  · simp only [List.mem_append] at hkey
    rcases hkey with (hkey | hkey) | hkey
    · exact writtenKey_of_mem_plainKeys hkey
    · obtain ⟨groups, hmem, hgroups⟩ := (mem_of_mapM hm).mp hkey
      exact (mem_months_iff.mp (.inl hmem)).writtenKey hgroups
    · obtain ⟨groups, hmem, hgroups⟩ := (mem_of_mapM hm').mp hkey
      exact (mem_months_iff.mp (.inr hmem)).writtenKey hgroups

/-- **A text is read**, with keys that are written in it, exactly if no month stands beside a
year in a spelling that the table does not have. -/
theorem parsePeriodKeys_written_iff (R : PeriodText) (source : List Char) :
    (∃ keys, parsePeriodKeys R source = .ok keys ∧ ∀ key ∈ keys, WrittenKey R source key) ↔
      ¬ UnknownMonth R source := by
  rw [← parsePeriodKeys_isOk_iff]
  exact exists_congr fun keys => and_iff_left_of_imp writtenKey_of_mem

end PeriodExpression

/-! ## A text that is not read -/

/-- The characters of ASCII and the Turkish letters. -/
def CharClass.turkish : CharClass where
  word c := CharClass.ascii.word c ||
    ['ç', 'Ç', 'ğ', 'Ğ', 'ı', 'İ', 'ö', 'Ö', 'ş', 'Ş', 'ü', 'Ü', 'ſ', '\u212a'].contains c
  digit := CharClass.ascii.digit
  space := CharClass.ascii.space
  word_of_digit c h := by rw [CharClass.ascii.word_of_digit c h, Bool.true_or]
  digit_lt := CharClass.ascii.digit_lt

/-- What capitals and other spellings of these letters fold to. -/
def turkishFolds : List (Char × List Char) :=
  [('Ç', ['ç']), ('Ğ', ['ğ']), ('İ', ['i', '\u0307']), ('Ö', ['ö']), ('Ş', ['ş']), ('Ü', ['ü']),
    ('ſ', ['s']), ('\u212a', ['k'])]

theorem turkishFolds_digits : (turkishFolds.all fun (_, folded) =>
    folded.all fun d => (CharClass.ascii.digit d).isNone) = true := by
  decide

theorem turkishFolds_ne_nil : (turkishFolds.all fun (_, folded) => !folded.isEmpty) = true := by
  decide

theorem ascii_digit_lt {c : Char} (h : (CharClass.ascii.digit c).isSome = true) :
    c.toNat < 128 := by
  have hdigit : c.isDigit = true := by
    by_contra hc
    simp [CharClass.ascii, hc] at h
  have hvalue : '9'.toNat = 57 := by decide
  have := (Char.isDigit_iff_toNat.mp hdigit).2
  omega

theorem ascii_space_lt {c : Char} (h : CharClass.ascii.space c = true) : c.toNat < 128 := by
  simp only [CharClass.ascii, Bool.or_eq_true, beq_iff_eq, Bool.and_eq_true,
    decide_eq_true_eq] at h
  rcases h with (rfl | h) | h
  · decide
  · omega
  · omega

/-- A law of the ASCII characters, from their codes. -/
theorem forall_ascii {P : Char → Prop} (h : ∀ n < 128, P (Char.ofNat n)) {c : Char}
    (hc : c.toNat < 128) : P c := by
  have := h c.toNat hc
  rwa [Char.ofNat_toNat] at this

section Turkish

variable {c d : Char}

theorem turkish_ascii (hc : c.toNat < 128) :
    CharClass.turkish.word c = CharClass.ascii.word c ∧
      CharClass.turkish.digit c = CharClass.ascii.digit c ∧
        CharClass.turkish.space c = CharClass.ascii.space c :=
  ⟨forall_ascii (P := fun c => CharClass.turkish.word c = CharClass.ascii.word c)
    (by decide +kernel) hc, rfl, rfl⟩

theorem turkish_word_letter
    (hc : c ∈ ['ç', 'Ç', 'ğ', 'Ğ', 'ı', 'İ', 'ö', 'Ö', 'ş', 'Ş', 'ü', 'Ü', 'ſ', '\u212a']) :
    CharClass.turkish.word c = true := by
  simp only [CharClass.turkish, List.contains_iff_mem.mpr hc, Bool.or_true]

theorem turkish_space_of_word (hc : CharClass.turkish.word c = true) :
    CharClass.turkish.space c = false := by
  by_contra hspace
  rw [Bool.not_eq_false] at hspace
  exact forall_ascii (P := fun c => ¬ (CharClass.turkish.word c = true ∧
    CharClass.ascii.space c = true)) (by decide +kernel) (ascii_space_lt hspace) ⟨hc, hspace⟩

theorem turkish_caseFold_ne_nil :
    (if c.toNat < 128 then [c.toLower] else (turkishFolds.lookup c).getD [c]) ≠ [] := by
  split
  · exact List.cons_ne_nil _ _
  cases hlookup : turkishFolds.lookup c with
  | none => exact List.cons_ne_nil _ _
  | some folded =>
    obtain ⟨l, l', heq, -⟩ := List.lookup_eq_some_iff.mp hlookup
    have := List.all_eq_true.mp turkishFolds_ne_nil (c, folded) (by rw [heq]; simp)
    simpa using this

theorem turkish_caseFold_digit (hc : (CharClass.turkish.digit c).isSome = true) :
    (if c.toNat < 128 then [c.toLower] else (turkishFolds.lookup c).getD [c]) = [c] := by
  rw [if_pos (ascii_digit_lt hc)]
  exact forall_ascii (P := fun c => (CharClass.ascii.digit c).isSome = true → [c.toLower] = [c])
    (by decide +kernel) (ascii_digit_lt hc) hc

theorem turkish_digit_caseFold
    (hd : d ∈ if c.toNat < 128 then [c.toLower] else (turkishFolds.lookup c).getD [c])
    (hdigit : (CharClass.turkish.digit d).isSome = true) : d = c := by
  split at hd
  · rename_i hc
    obtain rfl := List.mem_singleton.mp hd
    exact forall_ascii (P := fun c => (CharClass.ascii.digit c.toLower).isSome = true →
      c.toLower = c) (by decide +kernel) hc hdigit
  cases hlookup : turkishFolds.lookup c with
  | none =>
    rw [hlookup] at hd
    exact List.mem_singleton.mp hd
  | some folded =>
    rw [hlookup] at hd
    obtain ⟨l, l', heq, -⟩ := List.lookup_eq_some_iff.mp hlookup
    have hall := List.all_eq_true.mp turkishFolds_digits (c, folded) (by rw [heq]; simp)
    have := List.all_eq_true.mp hall d hd
    rw [Option.isNone_iff_eq_none] at this
    have hnone : (CharClass.turkish.digit d) = none := this
    rw [hnone] at hdigit
    cases hdigit

theorem turkish_caseFold_ascii (hc : c.toNat < 128) :
    (if c.toNat < 128 then [c.toLower] else (turkishFolds.lookup c).getD [c]) = [c.toLower] :=
  if_pos hc

end Turkish

/-- These characters are folded as Python folds them. -/
def PeriodText.turkish : PeriodText where
  chars := .turkish
  caseFold c := if c.toNat < 128 then [c.toLower] else (turkishFolds.lookup c).getD [c]
  ascii _ := turkish_ascii
  word_letter _ := turkish_word_letter
  space_of_word _ := turkish_space_of_word
  caseFold_ne_nil _ := turkish_caseFold_ne_nil
  caseFold_digit _ := turkish_caseFold_digit
  digit_caseFold _ _ := turkish_digit_caseFold
  caseFold_ascii _ := turkish_caseFold_ascii

/-- *nısan 2026*, with a dotless ı, **fails**. -/
theorem parsePeriodKeys_fails : ¬ ∃ keys,
    PeriodExpression.parsePeriodKeys .turkish "nısan 2026".toList = .ok keys ∧
      ∀ key ∈ keys, PeriodExpression.WrittenKey .turkish "nısan 2026".toList key := by
  have hfails : PeriodExpression.parsePeriodKeys .turkish "nısan 2026".toList =
      .error ⟨"nısan".toList⟩ := by decide +kernel
  rw [hfails]
  rintro ⟨_, h, -⟩
  cases h

end FinanceIntelligence
