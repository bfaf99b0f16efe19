import FinanceIntelligence.PeriodLists

/-!
# Reading lists of periods

What `parse_period_keys` (period_expression.py) reads in a list of canonical references. Besides
a year and the quarter behind it, the patterns know a quarter and the year behind it, with a
blank in between: so a blank between two references reads the quarter of the one with the year
of the other one.

* `mem_yearThenQuarter_iff` — every reference **is found**;
* `mem_quarterLabelThenYear_iff` — and so is every quarter with the year **across a blank**;
* `parsePeriodKeys_joined`, `textMatchesPeriod_joined_iff` — **nothing else** is, and a stored
  period is named by the same keys;
* `listing_exact_iff` — so a list is read as what it says exactly if all that is read across
  blanks **is listed as well**; *2024-Q1 2025-Q2* is not (`not_listing_exact`).
-/

namespace FinanceIntelligence

/-! ## What the patterns read -/

namespace PeriodExpression

open Pattern

variable {R : PeriodText} {first : Reference} {rest : List (Join × Reference)} {m : List Char}
  {x y : Spot}

/-- The text that is searched. -/
abbrev searched (first : Reference) (rest : List (Join × Reference)) : List Char :=
  joined Reference.folded first rest

theorem isDigit_mark (r : Reference) : R.isDigit r.mark = false := by
  rcases r.mark_mem with h | h <;> rw [h, isDigit_ascii (by decide)] <;> decide

theorem space_of_isDigit {c : Char} (h : R.isDigit c = true) : R.chars.space c = false :=
  R.space_of_word c (word_of_isDigit h)

/-- The other characters of a reference. -/
theorem ascii_facts {c : Char} (hc : c ∈ ['/', '-', 'q', ',']) :
    c.toNat < 128 ∧ R.isDigit c = false ∧ R.chars.space c = false := by
  have hall : (['/', '-', 'q', ','].all fun c => decide (c.toNat < 128) && !c.isDigit &&
      !CharClass.ascii.space c) = true := by decide
  have hfacts := List.all_eq_true.mp hall c hc
  simp only [Bool.and_eq_true, decide_eq_true_eq, Bool.not_eq_true'] at hfacts
  refine ⟨hfacts.1.1, ?_, ?_⟩
  · rw [isDigit_ascii hfacts.1.1, hfacts.1.2]
  · rw [(R.ascii c hfacts.1.1).2.2, hfacts.2]

theorem space_mark (r : Reference) : R.chars.space r.mark = false := by
  rcases r.mark_mem with h | h <;> rw [h] <;> exact (ascii_facts (by decide)).2.2

/-- The characters of a list. -/
theorem mem_searched {c : Char} (hc : c ∈ searched first rest) :
    c.isDigit = true ∨ c ∈ ['/', '-', 'q', ',', ' '] := by
  have hfolded : ∀ {r : Reference}, c ∈ r.folded → c.isDigit = true ∨
      c ∈ ['/', '-', 'q', ',', ' '] := by
    intro r hr
    rw [Reference.folded, List.mem_append] at hr
    rcases hr with hr | hr
    · exact .inl (r.isDigit_yearText hr)
    · simp only [List.mem_cons, List.not_mem_nil, or_false] at hr
      rcases hr with rfl | rfl | rfl
      · rcases r.mark_mem with h | h <;> simp [h]
      · simp
      · exact .inl r.quarterChar_facts.1
  rcases List.mem_append.mp hc with hc | hc
  · exact hfolded hc
  · obtain ⟨⟨join, r⟩, -, hc⟩ := List.mem_flatMap.mp hc
    rcases List.mem_append.mp hc with hc | hc
    · have hall : (join.text.all fun c => ['/', '-', 'q', ',', ' '].contains c) = true := by
        cases join <;> decide
      exact .inr (List.contains_iff_mem.mp (List.all_eq_true.mp hall c hc))
    · exact hfolded hc

/-- A class of letters that has nothing of a list. -/
theorem not_of_mem_searched {p : Char → Bool} (hp : ("0123456789/-q, ".toList.all fun c => !p c))
    {c : Char} (hc : c ∈ searched first rest) : p c = false := by
  have hdigits : ∀ n < 128, (Char.ofNat n).isDigit = true →
      Char.ofNat n ∈ "0123456789/-q, ".toList := by decide
  have hmem : c ∈ "0123456789/-q, ".toList := by
    rcases mem_searched hc with hdigit | hmem
    · exact forall_ascii (P := fun c => c.isDigit = true → c ∈ "0123456789/-q, ".toList) hdigits
        (toNat_lt_of_digit hdigit) hdigit
    · have hall : (['/', '-', 'q', ',', ' '].all fun c => "0123456789/-q, ".toList.contains c) =
          true := by decide
      exact List.contains_iff_mem.mp (List.all_eq_true.mp hall c hmem)
  simpa using List.all_eq_true.mp hp c hmem

theorem mark_searched {c : Char} (hc : c ∈ searched first rest) (h : mark c = true) : c = 'q' := by
  have := not_of_mem_searched (p := fun c => mark c && c != 'q') (by decide) hc
  simpa [h] using this

/-- Where a letter stands. -/
theorem exists_of_letter {a b : List Char} (h : searched first rest = a ++ 'q' :: b) :
    ∃ r rest' before, GoesOn first rest r rest' ∧ a = before ++ (r.yearText ++ [r.mark]) ∧
      b = r.quarterChar :: behind Reference.folded rest' := by
  obtain ⟨r, rest', before, s, t, hgoes, hr, rfl, rfl⟩ :=
    exists_goesOn_of_split (by decide) (by decide) h
  rcases r.folded_split hr (by decide) with ⟨-, hmark, -⟩ | ⟨rfl, -, rfl⟩
  · rcases r.mark_mem with hslash | hhyphen
    · rw [hslash] at hmark
      cases hmark
    · rw [hhyphen] at hmark
      cases hmark
  · exact ⟨r, rest', before, hgoes, rfl, rfl⟩

theorem mem_of_append_eq_concat (a b : List Char) {t : List Char} {k : Char}
    (h : a ++ t = b ++ [k]) (ht : t ≠ []) : k ∈ t := by
  have hlast := congrArg List.getLast? h
  rw [List.getLast?_append_of_ne_nil _ ht, List.getLast?_append_of_ne_nil _ (List.cons_ne_nil _ _),
    List.getLast?_singleton] at hlast
  exact List.mem_of_getLast? hlast

/-- A year, blanks, a separator and blanks that end like a year and a mark are no more than
these. -/
theorem year_and_mark {m v b s b' before y : List Char} {k : Char}
    (h : m ++ (v ++ b ++ s ++ b') = before ++ (y ++ [k])) (hv : IsYear R v) (hy : IsYear R y)
    (hlength : v.length = y.length) (hb : ∀ c ∈ b, R.chars.space c = true)
    (hs : s.length ≤ 1) (hb' : ∀ c ∈ b', R.chars.space c = true)
    (hk : R.isDigit k = false) (hk' : R.chars.space k = false) :
    v = y ∧ b = [] ∧ s = [k] ∧ b' = [] := by
  have hblanks : ∀ {t : List Char} {c : Char}, (∀ d ∈ t, R.chars.space d = true) →
      R.chars.space c = false → (t ≠ [] → c ∈ t) → t = [] := by
    intro t c ht hc hmem
    by_contra hne
    rw [ht c (hmem hne)] at hc
    cases hc
  rw [← List.append_assoc before] at h
  obtain rfl : b' = [] := hblanks hb' hk' fun hne =>
    mem_of_append_eq_concat (m ++ (v ++ b ++ s)) (before ++ y)
      (by simpa only [List.append_assoc] using h) hne
  rw [List.append_nil] at h
  match s, hs with
  | [], _ =>
    rw [List.append_nil] at h
    obtain rfl : b = [] := hblanks hb hk' fun hne =>
      mem_of_append_eq_concat (m ++ v) (before ++ y)
        (by simpa only [List.append_assoc] using h) hne
    rw [List.append_nil] at h
    rw [hv.digits k (mem_of_append_eq_concat _ _ h hv.ne_nil)] at hk
    cases hk
  | [c], _ =>
    rw [← List.append_assoc m] at h
    obtain ⟨hleft, hc⟩ := List.append_inj' h rfl
    obtain rfl := List.singleton_inj.mp hc
    have hlast := List.dropLast_concat_getLast hy.ne_nil
    obtain rfl : b = [] := hblanks hb
      (space_of_isDigit (hy.digits _ (List.getLast_mem hy.ne_nil))) fun hne => by
        rw [← hlast, ← List.append_assoc before, ← List.append_assoc m] at hleft
        exact mem_of_append_eq_concat _ _ hleft hne
    rw [List.append_nil] at hleft
    exact ⟨(List.append_inj' hleft hlength).2, rfl, rfl, rfl⟩

theorem IsYear.length {y : List Char} (h : IsYear R y) : y.length = 4 := by
  obtain ⟨c, d, rfl | rfl, -⟩ := h <;> rfl

/-- What a match of a year and a quarter reads. -/
theorem reads_of_mem_yearThenQuarter {v : List Char} {q : Char}
    (h : ((v, q), y) ∈ yearThenQuarter R x) : ∃ b s b' k b'', IsYear R v ∧
      (∀ c ∈ b, R.chars.space c = true) ∧ s.length ≤ 1 ∧ (∀ c ∈ b', R.chars.space c = true) ∧
      mark k = true ∧ (∀ c ∈ b'', R.chars.space c = true) ∧ quarterDigit q = true ∧
      x.Leads ((v ++ b ++ s ++ b') ++ k :: (b'' ++ [q])) y := by
  simp only [yearThenQuarter, blanks, separator, mem_bind, mem_bound, mem_year, mem_many,
    mem_optOne, mem_one, mem_pure, Prod.mk.injEq] at h
  obtain ⟨_, _, ⟨rfl, -⟩, v, _, ⟨hv, hyear⟩, b, _, ⟨hb, hspace⟩, s, _, ⟨hs, hlength, -⟩, b', _,
    ⟨hb', hspace'⟩, k, _, ⟨hm, hk⟩, b'', _, ⟨hb'', hspace''⟩, q, _, ⟨hq, hqd⟩, _, _, ⟨rfl, -⟩,
    ⟨rfl, rfl⟩, rfl⟩ := h
  exact ⟨b, s, b', k, b'', hyear, hspace, hlength, hspace', hk, hspace'', hqd,
    (((hv.trans hb).trans hs).trans hb').trans (hm.trans (hb''.trans hq))⟩

/-- There are no blanks before a quarter. -/
theorem nil_of_blanks {b t s : List Char} {r : Reference}
    (hspace : ∀ c ∈ b, R.chars.space c = true) (h : b ++ t = r.quarterChar :: s) : b = [] := by
  cases b with
  | nil => rfl
  | cons c b =>
    obtain ⟨rfl, -⟩ := List.cons.inj h
    have := space_of_isDigit (r.isDigit_quarterChar (R := R))
    rw [hspace _ List.mem_cons_self] at this
    cases this

/-- A reference is **all that is read** as a year and a quarter. -/
theorem folded_of_mem_yearThenQuarter {v : List Char} {q : Char}
    (hx : (Spot.start (searched first rest)).Leads m x) (h : ((v, q), y) ∈ yearThenQuarter R x) :
    ∃ r rest', GoesOn first rest r rest' ∧ v = r.yearText ∧ q = r.quarterChar ∧
      x.Leads r.folded y := by
  obtain ⟨b, s, b', k, b'', hyear, hspace, hlength, hspace', hk, hspace'', hqd, hleads⟩ :=
    reads_of_mem_yearThenQuarter h
  have htext : searched first rest =
      (m ++ (v ++ b ++ s ++ b')) ++ k :: (b'' ++ (q :: y.rest)) := by
    have := hx.rest
    rw [hleads.rest] at this
    simpa [Spot.start] using this
  obtain rfl : k = 'q' := mark_searched (by rw [htext]; simp) hk
  obtain ⟨r, rest', before, hgoes, hbefore, hafter⟩ := exists_of_letter htext
  -- behind the letter is the quarter
  obtain rfl := nil_of_blanks hspace'' hafter
  obtain ⟨rfl, -⟩ := List.cons.inj hafter
  -- before it are the mark and the year
  obtain ⟨rfl, rfl, rfl, rfl⟩ := year_and_mark hbefore hyear r.isYear
    (hyear.length.trans r.length_yearText.symm) hspace hlength hspace' (isDigit_mark r)
    (space_mark r)
  refine ⟨r, rest', hgoes, rfl, rfl, ?_⟩
  simpa [Reference.folded] using hleads

/-- No word character stands next to a place of a list. -/
theorem word_beside {c : Char} (hc : c ∈ ['/', '-', ',', ' ']) : R.chars.word c = false := by
  have hall : (['/', '-', ',', ' '].all fun c => decide (c.toNat < 128) &&
      !CharClass.ascii.word c) = true := by decide
  have hfacts := List.all_eq_true.mp hall c hc
  simp only [Bool.and_eq_true, decide_eq_true_eq, Bool.not_eq_true'] at hfacts
  rw [(R.ascii c hfacts.1).1, hfacts.2]

theorem word_behind (text : Reference → List Char) (rest : List (Join × Reference)) :
    (behind text rest).head?.any R.chars.word = false := by
  cases rest with
  | nil => rfl
  | cons head rest =>
    obtain ⟨join, r⟩ := head
    rw [behind_cons]
    cases join
    · exact word_beside (by decide)
    · exact word_beside (by decide)

theorem head?_yearText (r : Reference) :
    ∃ c, r.yearText.head? = some c ∧ R.chars.word c = true := by
  obtain ⟨c, s, hyear⟩ := List.exists_cons_of_ne_nil (r.isYear (R := R)).ne_nil
  exact ⟨c, by rw [hyear]; rfl, word_of_isDigit (r.isDigit_of_mem_yearText (by rw [hyear]; simp))⟩

/-- A reference matches. -/
theorem mem_yearThenQuarter (r : Reference) (hx : x.Leads r.folded y)
    (hprev : x.prev.any R.chars.word = false) (hnext : y.rest.head?.any R.chars.word = false) :
    ((r.yearText, r.quarterChar), y) ∈ yearThenQuarter R x := by
  obtain ⟨z, hv, htail⟩ := Spot.leads_append_iff.mp hx
  obtain ⟨z', hm, htail⟩ := (Spot.leads_append_iff (m := [r.mark])).mp htail
  obtain ⟨z'', hk, hq⟩ := (Spot.leads_append_iff (m := ['q'])).mp htail
  obtain ⟨c, hc, hword⟩ := head?_yearText (R := R) r
  have hstart : Regex.atBoundary R.chars x = true := by
    refine (Regex.atBoundary_iff_prev (c := c) ?_ hword).mpr hprev
    rw [hv.rest, List.head?_append_of_ne_nil _ (r.isYear (R := R)).ne_nil, hc]
  have hstop : Regex.atBoundary R.chars y = true :=
    (Regex.atBoundary_iff_next hq.prev (word_of_isDigit r.isDigit_quarterChar)).mpr hnext
  have hmark : ∀ c ∈ [r.mark], (c == '/' || c == '-' || c == '_' || c == ' ') = true := by
    rcases r.mark_mem with h | h <;> simp [h]
  have hnone : ∀ c ∈ ([] : List Char), R.chars.space c = true :=
    fun _ h => absurd h List.not_mem_nil
  simp only [yearThenQuarter, blanks, separator, mem_bind, mem_bound, mem_year, mem_many,
    mem_optOne, mem_one, mem_pure, Prod.mk.injEq]
  exact ⟨(), x, ⟨rfl, hstart⟩, _, z, ⟨hv, r.isYear⟩, [], z, ⟨.refl z, hnone⟩, _, z',
    ⟨hm, Nat.le_refl 1, hmark⟩, [], z', ⟨.refl z', hnone⟩, 'q', z'', ⟨hk, by decide⟩, [], z'',
    ⟨.refl z'', hnone⟩, _, y, ⟨hq, r.quarterChar_facts.2.1⟩, (), y, ⟨rfl, hstop⟩, ⟨rfl, rfl⟩, rfl⟩

theorem length_folded (r : Reference) : r.folded.length = 7 := by
  simp [Reference.folded, r.length_yearText]

theorem blank_notMem_folded (r : Reference) : ' ' ∉ r.folded := by
  intro h
  simp only [Reference.folded, List.mem_append, List.mem_cons, List.not_mem_nil, or_false] at h
  rcases h with h | h | h | h
  · have := r.isDigit_yearText h
    cases this
  · rcases r.mark_mem with hm | hm <;> rw [hm] at h <;> cases h
  · cases h
  · have := r.quarterChar_facts.1
    rw [← h] at this
    cases this

theorem folded_inj {r r' : Reference} (h : r.folded = r'.folded) :
    r.yearText = r'.yearText ∧ r.quarterChar = r'.quarterChar := by
  obtain ⟨hyear, htail⟩ := List.append_inj h (r.length_yearText.trans r'.length_yearText.symm)
  exact ⟨hyear, (List.cons.inj (List.cons.inj (List.cons.inj htail).2).2).1⟩

/-- **Every reference is found**, and nothing else. -/
theorem mem_yearThenQuarter_iff {v : List Char} {q : Char} :
    (v, q) ∈ (yearThenQuarter R).finditer (searched first rest) ↔
      ∃ r rest', GoesOn first rest r rest' ∧ v = r.yearText ∧ q = r.quarterChar := by
  have hadvances : Advances (yearThenQuarter R) :=
    yearThenQuarter_captures.advances YearPiece.ne_nil
  constructor
  · intro h
    obtain ⟨m, x, y, hx, hmem⟩ := mem_finditer hadvances h
    obtain ⟨r, rest', hgoes, hv, hq, -⟩ := folded_of_mem_yearThenQuarter hx hmem
    exact ⟨r, rest', hgoes, hv, hq⟩
  · rintro ⟨r, rest', hgoes, rfl, rfl⟩
    obtain ⟨before, htext, hbefore⟩ := hgoes.text Reference.folded
    have hx := Spot.leads_start before (r.folded ++ behind Reference.folded rest')
    rw [← joined, ← htext] at hx
    have hleads : Spot.Leads ⟨before.getLast?, joined Reference.folded r rest'⟩ r.folded
      ⟨(r.folded.getLast?).or before.getLast?, behind Reference.folded rest'⟩ := ⟨rfl, rfl⟩
    have hprev : before.getLast?.any R.chars.word = false := by
      rcases hbefore with rfl | hlast
      · rfl
      · rw [hlast]
        exact word_beside (by decide)
    have hmem := mem_yearThenQuarter r hleads hprev (word_behind _ rest')
    obtain ⟨⟨v, q⟩, y, hfound, hthere⟩ := exists_mem_finditer_at hadvances hx hmem
      (fun {m' x' a' y' w} hx' hmem' hw hlength => by
        by_contra hne
        obtain ⟨r', -, -, -, -, hread⟩ := folded_of_mem_yearThenQuarter hx' hmem'
        obtain ⟨u, -, hu⟩ := hw.of_length_le hread (Nat.le_of_lt hlength)
        have hlast := hw.prev
        rw [List.getLast?_eq_some_getLast hne, Option.some_or] at hlast
        rcases hbefore with rfl | hblank
        · cases hlast
        · -- a match that reaches over the place has the blank before it
          have heq : ' ' = w.getLast hne := Option.some.inj (hblank.symm.trans hlast)
          refine blank_notMem_folded r' ?_
          rw [hu, heq]
          exact List.mem_append_left _ (List.getLast_mem hne))
    obtain ⟨r', -, -, rfl, rfl, hread⟩ := folded_of_mem_yearThenQuarter hx hthere
    have hsame := (List.append_inj (hleads.rest.symm.trans hread.rest)
      ((length_folded r).trans (length_folded r').symm)).1
    obtain ⟨hyear, hquarter⟩ := folded_inj hsame
    rw [hyear, hquarter]
    exact hfound

/-! ## Quarters and the years behind them -/

/-- What a match of a quarter and a year reads. -/
theorem reads_of_mem_quarterLabelThenYear {v : List Char} {q : Char}
    (h : ((v, q), y) ∈ quarterLabelThenYear R x) : ∃ k b b' s b'', mark k = true ∧
      (∀ c ∈ b, R.chars.space c = true) ∧ (∀ c ∈ b', R.chars.space c = true) ∧
      (∀ c ∈ s, (c == '/' || c == '-' || c == '_' || c == ' ') = true) ∧
      (∀ c ∈ b'', R.chars.space c = true) ∧ IsYear R v ∧
      x.Leads (k :: (b ++ q :: (b' ++ s ++ b'' ++ v))) y := by
  simp only [quarterLabelThenYear, blanks, separator, mem_bind, mem_bound, mem_year, mem_many,
    mem_optOne, mem_one, mem_pure, Prod.mk.injEq] at h
  obtain ⟨_, _, ⟨rfl, -⟩, k, _, ⟨hm, hk⟩, b, _, ⟨hb, hspace⟩, q, _, ⟨hq, -⟩, b', _,
    ⟨hb', hspace'⟩, s, _, ⟨hs, -, hsep⟩, b'', _, ⟨hb'', hspace''⟩, v, _, ⟨hv, hyear⟩, _, _,
    ⟨rfl, -⟩, ⟨rfl, rfl⟩, rfl⟩ := h
  exact ⟨k, b, b', s, b'', hk, hspace, hspace', hsep, hspace'', hyear,
    hm.trans (hb.trans (hq.trans (((hb'.trans hs).trans hb'').trans hv)))⟩

/-- Behind a quarter that is followed by blanks or a separator and a year is a blank. -/
theorem behind_eq_year {rest : List (Join × Reference)} {b v t : List Char}
    (h : b ++ (v ++ t) = behind Reference.folded rest)
    (hb : ∀ c ∈ b, R.isDigit c = false ∧ c ≠ ',') (hv : IsYear R v) :
    ∃ r rest', rest = (.blank, r) :: rest' ∧ b = [' '] ∧ v = r.yearText := by
  have hjoin : ∀ {join : Join}, ∀ c ∈ join.text, (!R.isDigit c) = true := by
    intro join c hc
    have hall : (join.text.all fun c => decide (c.toNat < 128) && !c.isDigit) = true := by
      cases join <;> decide
    have hfacts := List.all_eq_true.mp hall c hc
    simp only [Bool.and_eq_true, decide_eq_true_eq, Bool.not_eq_true'] at hfacts
    rw [isDigit_ascii hfacts.1, hfacts.2]
    rfl
  have hhead : ∀ {v t : List Char}, IsYear R v → (v ++ t).head?.any (fun c => !R.isDigit c) =
      false := by
    intro v t hv
    obtain ⟨c, s, rfl⟩ := List.exists_cons_of_ne_nil hv.ne_nil
    simpa using hv.digits c List.mem_cons_self
  cases rest with
  | nil =>
    obtain ⟨-, hnil⟩ := List.append_eq_nil_iff.mp h
    exact absurd (List.append_eq_nil_iff.mp hnil).1 hv.ne_nil
  | cons head rest =>
    obtain ⟨join, r⟩ := head
    rw [behind_cons, joined, Reference.folded, List.append_assoc] at h
    obtain ⟨rfl, htail⟩ := append_inj_of_class (p := fun c => !R.isDigit c)
      (fun c hc => by simp [(hb c hc).1]) hjoin (hhead hv) (hhead r.isYear) h
    cases join with
    | blank =>
      exact ⟨r, rest, rfl, rfl,
        (List.append_inj htail (hv.length.trans r.length_yearText.symm)).1⟩
    | comma => exact absurd rfl (hb ',' (by simp [Join.text])).2

/-- What is read as a quarter and a year lies **across a blank**. -/
theorem crossing_of_mem_quarterLabelThenYear {v : List Char} {q : Char}
    (hx : (Spot.start (searched first rest)).Leads m x)
    (h : ((v, q), y) ∈ quarterLabelThenYear R x) :
    ∃ r r' rest', GoesOn first rest r ((.blank, r') :: rest') ∧ v = r'.yearText ∧
      q = r.quarterChar ∧ x.Leads ('q' :: r.quarterChar :: ' ' :: r'.yearText) y := by
  obtain ⟨k, b, b', s, b'', hk, hspace, hspace', hsep, hspace'', hyear, hleads⟩ :=
    reads_of_mem_quarterLabelThenYear h
  have htext : searched first rest = m ++ k :: (b ++ q :: (b' ++ s ++ b'' ++ (v ++ y.rest))) := by
    have := hx.rest
    rw [hleads.rest] at this
    simpa [Spot.start] using this
  obtain rfl : k = 'q' := mark_searched (by rw [htext]; simp) hk
  obtain ⟨r, rest', before, hgoes, -, hafter⟩ := exists_of_letter htext
  have hquarter := r.isDigit_quarterChar (R := R)
  obtain rfl := nil_of_blanks hspace hafter
  obtain ⟨rfl, hbehind⟩ := List.cons.inj hafter
  -- neither blanks nor separators are digits, and none is a comma
  have hblank : ∀ c, R.chars.space c = true → R.isDigit c = false ∧ c ≠ ',' := by
    intro c hc
    refine ⟨?_, ?_⟩
    · by_contra hdigit
      rw [space_of_isDigit (Bool.not_eq_false _ ▸ hdigit)] at hc
      cases hc
    · rintro rfl
      rw [(ascii_facts (by decide)).2.2] at hc
      cases hc
  have hclass : ∀ c ∈ b' ++ s ++ b'', R.isDigit c = false ∧ c ≠ ',' := by
    intro c hc
    rcases List.mem_append.mp hc with hc | hc
    · rcases List.mem_append.mp hc with hc | hc
      · exact hblank c (hspace' c hc)
      · have := hsep c hc
        simp only [Bool.or_eq_true, beq_iff_eq] at this
        rcases this with ((rfl | rfl) | rfl) | rfl <;>
          exact ⟨by rw [isDigit_ascii (by decide)]; decide, by decide⟩
    · exact hblank c (hspace'' c hc)
  obtain ⟨r', rest'', rfl, hb, rfl⟩ := behind_eq_year hbehind hclass hyear
  refine ⟨r, r', rest'', hgoes, rfl, rfl, ?_⟩
  rw [hb] at hleads
  simpa using hleads

/-- What lies across a blank matches. -/
theorem mem_quarterLabelThenYear (r r' : Reference)
    (hx : x.Leads ('q' :: r.quarterChar :: ' ' :: r'.yearText) y)
    (hprev : x.prev.any R.chars.word = false) (hnext : y.rest.head?.any R.chars.word = false) :
    ((r'.yearText, r.quarterChar), y) ∈ quarterLabelThenYear R x := by
  obtain ⟨z, hk, htail⟩ := (Spot.leads_append_iff (m := ['q'])).mp hx
  obtain ⟨z', hq, htail⟩ := (Spot.leads_append_iff (m := [r.quarterChar])).mp htail
  obtain ⟨z'', hb, hv⟩ : ∃ z'', z'.Leads [' '] z'' ∧ z''.Leads r'.yearText y :=
    (Spot.leads_append_iff (m := [' '])).mp htail
  have hstart : Regex.atBoundary R.chars x = true := by
    refine (Regex.atBoundary_iff_prev (c := 'q') ?_ (word_of_ascii (by decide) (by decide))).mpr
      hprev
    rw [hk.rest]
    rfl
  have hyear := r'.isYear (R := R)
  have hstop : Regex.atBoundary R.chars y = true := by
    refine (Regex.atBoundary_iff_next ?_ (hyear.word _ (List.getLast_mem hyear.ne_nil))).mpr hnext
    rw [hv.prev, List.getLast?_eq_some_getLast hyear.ne_nil]
    rfl
  have hnone : ∀ c ∈ ([] : List Char), R.chars.space c = true :=
    fun _ h => absurd h List.not_mem_nil
  simp only [quarterLabelThenYear, blanks, separator, mem_bind, mem_bound, mem_year, mem_many,
    mem_optOne, mem_one, mem_pure, Prod.mk.injEq]
  exact ⟨(), x, ⟨rfl, hstart⟩, 'q', z, ⟨hk, by decide⟩, [], z, ⟨.refl z, hnone⟩, _, z',
    ⟨hq, r.quarterChar_facts.2.1⟩, [], z', ⟨.refl z', hnone⟩, [' '], z'',
    ⟨hb, Nat.le_refl 1, by simp⟩, [], z'', ⟨.refl z'', hnone⟩, _, y, ⟨hv, hyear⟩, (), y,
    ⟨rfl, hstop⟩, ⟨rfl, rfl⟩, rfl⟩

theorem letter_notMem (r r' : Reference) : 'q' ∉ r.quarterChar :: ' ' :: r'.yearText := by
  intro h
  rcases List.mem_cons.mp h with h | h
  · have := r.quarterChar_facts.1
    rw [← h] at this
    cases this
  rcases List.mem_cons.mp h with h | h
  · cases h
  · have := r'.isDigit_yearText h
    cases this

/-- **Every quarter is read with the year across a blank**, and with no other one. -/
theorem mem_quarterLabelThenYear_iff {v : List Char} {q : Char} :
    (v, q) ∈ (quarterLabelThenYear R).finditer (searched first rest) ↔ ∃ r r' rest',
      GoesOn first rest r ((.blank, r') :: rest') ∧ v = r'.yearText ∧ q = r.quarterChar := by
  have hadvances : Advances (quarterLabelThenYear R) :=
    quarterLabelThenYear_captures.advances YearPiece.ne_nil
  constructor
  · intro h
    obtain ⟨m, x, y, hx, hmem⟩ := mem_finditer hadvances h
    obtain ⟨r, r', rest', hgoes, hv, hq, -⟩ := crossing_of_mem_quarterLabelThenYear hx hmem
    exact ⟨r, r', rest', hgoes, hv, hq⟩
  · rintro ⟨r, r', rest', hgoes, rfl, rfl⟩
    obtain ⟨before, htext, -⟩ := hgoes.text Reference.folded
    have hsplit : searched first rest = (before ++ (r.yearText ++ [r.mark])) ++
        ('q' :: r.quarterChar :: ' ' :: r'.yearText ++
          (r'.mark :: 'q' :: r'.quarterChar :: behind Reference.folded rest')) := by
      rw [searched, htext, joined, behind_cons, joined]
      simp [Reference.folded, Join.text]
    have hx := Spot.leads_start (before ++ (r.yearText ++ [r.mark]))
      ('q' :: r.quarterChar :: ' ' :: r'.yearText ++
          (r'.mark :: 'q' :: r'.quarterChar :: behind Reference.folded rest'))
    rw [← hsplit] at hx
    set x : Spot := ⟨(before ++ (r.yearText ++ [r.mark])).getLast?,
      'q' :: r.quarterChar :: ' ' :: r'.yearText ++
          (r'.mark :: 'q' :: r'.quarterChar :: behind Reference.folded rest')⟩ with hxdef
    obtain ⟨y, hleads, hafter⟩ : ∃ y, x.Leads ('q' :: r.quarterChar :: ' ' :: r'.yearText) y ∧
        y.rest = r'.mark :: 'q' :: r'.quarterChar :: behind Reference.folded rest' :=
      ⟨⟨_, _⟩, ⟨rfl, rfl⟩, rfl⟩
    have hmark : ∀ s : Reference, R.chars.word s.mark = false := by
      intro s
      rcases s.mark_mem with h | h <;> rw [h] <;> exact word_beside (by decide)
    have hmem := mem_quarterLabelThenYear (R := R) r r' hleads
      (by simp [hxdef, hmark]) (by simp [hafter, hmark])
    obtain ⟨⟨v, q⟩, y', hfound, hthere⟩ := exists_mem_finditer_at hadvances hx hmem
      (fun {m' x' a' y' w} hx' hmem' hw hlength => by
        by_contra hne
        obtain ⟨s, s', -, -, -, -, hread⟩ := crossing_of_mem_quarterLabelThenYear hx' hmem'
        obtain ⟨u, hu, heq⟩ := hw.of_length_le hread (Nat.le_of_lt hlength)
        -- a match that reaches over the place has its letter inside
        obtain ⟨c, w, rfl⟩ := List.exists_cons_of_ne_nil hne
        obtain ⟨-, htail⟩ := List.cons.inj heq
        refine letter_notMem s s' ?_
        rw [htail]
        refine List.mem_append_right _ ?_
        cases u with
        | nil =>
          obtain rfl := Spot.leads_nil_iff.mp hu
          exact absurd hlength (Nat.lt_irrefl _)
        | cons d u =>
          obtain ⟨rfl, -⟩ := List.cons.inj hu.rest
          exact List.mem_cons_self)
    obtain ⟨s, s', -, -, rfl, rfl, hread⟩ := crossing_of_mem_quarterLabelThenYear hx hthere
    have hsame := hleads.rest.symm.trans hread.rest
    obtain ⟨-, hsame⟩ := List.cons.inj hsame
    obtain ⟨hquarter, hsame⟩ := List.cons.inj hsame
    obtain ⟨-, hsame⟩ := List.cons.inj hsame
    obtain ⟨hyear, -⟩ :=
      List.append_inj hsame (r'.length_yearText.trans s'.length_yearText.symm)
    rw [hquarter, hyear]
    exact hfound

/-! ## The other patterns -/

theorem text_of_leads {text n : List Char} (hx : (Spot.start text).Leads m x) (h : x.Leads n y) :
    text = m ++ (n ++ y.rest) := by
  have := hx.rest
  rwa [h.rest] at this

theorem finditer_eq_nil {γ : Type} {p : Pattern γ} {text : List Char} (hp : Advances p)
    (h : ∀ {m x a y}, (Spot.start text).Leads m x → (a, y) ∉ p x) : p.finditer text = [] := by
  refine List.eq_nil_iff_forall_not_mem.mpr fun a ha => ?_
  obtain ⟨m, x, y, hx, hmem⟩ := mem_finditer hp ha
  exact h hx hmem

/-- A mark, blanks and two digits are not in a list. -/
theorem finditer_quarterThenYear : (quarterThenYear R).finditer (searched first rest) = [] := by
  refine finditer_eq_nil (quarterThenYear_captures.advances fun h => h.elim YearPiece.ne_nil
    fun ⟨_, _, _, _, _, _, _, _, _, hw, _⟩ => by simp [hw]) fun {m x a y} hx h => ?_
  obtain ⟨v, q⟩ := a
  simp only [quarterThenYear, blanks, mem_bind, mem_bound, mem_year, mem_many, mem_optOne, mem_one,
    mem_alt, mem_chars, List.forall₂_cons_left_iff, List.forall₂_nil_left_iff, mem_pure,
    Prod.mk.injEq] at h
  obtain ⟨_, _, ⟨rfl, -⟩, o, _, ⟨ho, -⟩, b, _, ⟨hb, -⟩, q, _, ⟨hq, -⟩, b', _, ⟨hb', -⟩, k, _,
    ⟨hm, hk⟩, b'', z, ⟨hb'', hspace⟩, v, _, hv, _, _, ⟨rfl, -⟩, ⟨rfl, rfl⟩, rfl⟩ := h
  -- the year starts with two digits
  obtain ⟨c, d, v', hleads, hc, hd⟩ : ∃ c d v', z.Leads (c :: d :: v') y ∧ R.isDigit c = true ∧
      R.isDigit d = true := by
    rcases hv with ⟨hv, hyear⟩ | ⟨hv, c, _, hc, ⟨d, _, hd, rfl, rfl⟩, rfl⟩
    · have hall := hyear.digits
      obtain ⟨c, d, rfl | rfl, -⟩ := hyear
      · exact ⟨_, _, _, hv, hall _ (by simp), hall _ (by simp)⟩
      · exact ⟨_, _, _, hv, hall _ (by simp), hall _ (by simp)⟩
    · exact ⟨c, d, [], hv, hc, hd⟩
  have htext := text_of_leads hx
    ((((ho.trans hb).trans hq).trans hb').trans (hm.trans (hb''.trans hleads)))
  have hsplit : searched first rest = (m ++ (o ++ b ++ [q] ++ b')) ++
      k :: (b'' ++ (c :: d :: (v' ++ y.rest))) := by
    rw [htext]
    simp
  obtain rfl : k = 'q' := mark_searched (by rw [hsplit]; simp) hk
  obtain ⟨r, rest', -, -, -, hafter⟩ := exists_of_letter hsplit
  obtain rfl := nil_of_blanks hspace hafter
  obtain ⟨-, hbehind⟩ := List.cons.inj hafter
  have := word_behind (R := R) Reference.folded rest'
  rw [← hbehind] at this
  simp [word_of_isDigit hd] at this

/-- What has a letter that is not in a list is not found. -/
theorem finditer_eq_nil_of_letter {γ : Type} {p : Pattern γ} {c : Char → Bool}
    (hp : Captures p fun _ w => ∃ d, w = [d] ∧ c d = true)
    (hc : ("0123456789/-q, ".toList.all fun d => !c d) = true) :
    p.finditer (searched first rest) = [] := by
  have hne : ∀ {a : γ} {w}, (∃ d, w = [d] ∧ c d = true) → w ≠ [] := by
    rintro a w ⟨d, rfl, -⟩
    exact List.cons_ne_nil d []
  refine List.eq_nil_iff_forall_not_mem.mpr fun a ha => ?_
  obtain ⟨w, hw, d, rfl, hd⟩ := hp.mem_finditer (fun {a w} h => hne (a := a) h) ha
  have hmem : d ∈ searched first rest := hw.subset List.mem_cons_self
  rw [not_of_mem_searched hc hmem] at hd
  cases hd

theorem mem_text_quarter {u : List Char} (h : (u, y) ∈ text "çeyre".toList x) :
    ∃ d u', u = d :: u' ∧ anyCase 'ç' d = true ∧ x.Leads (d :: u') y := by
  have h : (u, y) ∈ text ('ç' :: "eyre".toList) x := h
  rw [text, List.map_cons, mem_chars, List.forall₂_cons_left_iff] at h
  obtain ⟨hleads, d, u', hd, -, rfl⟩ := h
  exact ⟨d, u', rfl, hd, hleads⟩

theorem finditer_yearThenWordQuarter :
    (yearThenWordQuarter R).finditer (searched first rest) = [] := by
  refine finditer_eq_nil_of_letter (c := anyCase 'ç') ?_ (by decide)
  rintro x ⟨v, w⟩ y h
  simp only [yearThenWordQuarter, blanks, mem_bind, mem_bound, mem_year, mem_many, mem_optOne,
    mem_pure, Prod.mk.injEq] at h
  obtain ⟨_, _, ⟨rfl, -⟩, v, _, ⟨hv, -⟩, _, _, ⟨rfl, -⟩, _, _, hfew, _, _, ⟨rfl, -⟩, w, _, hw,
    _, _, ⟨rfl, -⟩, _, _, ⟨hdot, -⟩, _, _, ⟨hb, -⟩, _, _, ht, ⟨rfl, rfl⟩, rfl⟩ := h
  obtain ⟨_, hfew⟩ := later_one.few hfew
  obtain ⟨_, hw⟩ := later_ordinal hw
  obtain ⟨d, u, rfl, hd, ht⟩ := mem_text_quarter ht
  have hleads := (hv.trans (hfew.trans (hw.trans (hdot.trans hb)))).trans ht
  rw [List.append_cons] at hleads
  exact ⟨_, [d], u, hleads, d, rfl, hd⟩

theorem finditer_wordQuarterThenYear :
    (wordQuarterThenYear R).finditer (searched first rest) = [] := by
  refine finditer_eq_nil_of_letter (c := anyCase 'ç') ?_ (by decide)
  rintro x ⟨v, w⟩ y h
  simp only [wordQuarterThenYear, blanks, mem_bind, mem_bound, mem_year, mem_many, mem_optOne,
    mem_pure, Prod.mk.injEq] at h
  obtain ⟨_, _, ⟨rfl, -⟩, w, _, hw, _, _, ⟨rfl, -⟩, _, _, ⟨hdot, -⟩, _, _, ⟨hb, -⟩, _, _, ht,
    _, _, ⟨hword, -⟩, _, _, ⟨hb', -⟩, _, _, hfew, _, _, ⟨rfl, -⟩, v, _, ⟨hv, -⟩, _, _,
    ⟨rfl, -⟩, ⟨rfl, rfl⟩, rfl⟩ := h
  obtain ⟨_, hfew⟩ := later_group.few hfew
  obtain ⟨_, hw⟩ := later_ordinal hw
  obtain ⟨d, u, rfl, hd, ht⟩ := mem_text_quarter ht
  have hleads := ((hw.trans (hdot.trans hb)).trans ht).trans
    (hword.trans (hb'.trans (hfew.trans hv)))
  rw [List.append_cons, List.append_assoc] at hleads
  exact ⟨_, [d], _, hleads, d, rfl, hd⟩

/-- A date has a digit behind its separator. -/
theorem finditer_eq_nil_of_date {γ : Type} {p : Pattern γ}
    (hp : Captures p fun _ w => ∃ c d, w = [c, d] ∧ (c == '.' || c == '/' || c == '-') = true ∧
      R.isDigit d = true) : p.finditer (searched first rest) = [] := by
  refine List.eq_nil_iff_forall_not_mem.mpr fun a ha => ?_
  have hne : ∀ {w : List Char}, (∃ c d, w = [c, d] ∧ (c == '.' || c == '/' || c == '-') = true ∧
      R.isDigit d = true) → w ≠ [] := by
    rintro w ⟨c, d, rfl, -⟩
    exact List.cons_ne_nil c [d]
  obtain ⟨w, ⟨before, after, hw⟩, c, d, rfl, hc, hd⟩ := hp.mem_finditer hne ha
  have hsplit : searched first rest = before ++ c :: (d :: after) := by
    rw [← hw]
    simp
  have hclass : c ≠ ' ' ∧ c ≠ ',' ∧ c ≠ 'q' ∧ c.isDigit = false := by
    simp only [Bool.or_eq_true, beq_iff_eq] at hc
    rcases hc with (rfl | rfl) | rfl <;> decide
  obtain ⟨r, rest', -, s, t, -, hr, -, ht⟩ :=
    exists_goesOn_of_split hclass.1 hclass.2.1 hsplit
  rcases r.folded_split hr hclass.2.2.2 with ⟨-, -, rfl⟩ | ⟨-, hq, -⟩
  · obtain ⟨rfl, -⟩ := List.cons.inj ht
    rw [(ascii_facts (by decide)).2.1] at hd
    cases hd
  · exact hclass.2.2.1 hq

theorem mem_oneOrTwoDigits_cons {u : List Char} (h : (u, y) ∈ oneOrTwoDigits R x) :
    ∃ d u', u = d :: u' ∧ R.isDigit d = true ∧ x.Leads (d :: u') y := by
  simp only [oneOrTwoDigits, mem_bind, mem_one, mem_optOne, mem_pure] at h
  obtain ⟨d, _, ⟨hd, hdigit⟩, u', _, ⟨hu, -⟩, rfl, rfl⟩ := h
  exact ⟨d, u', rfl, hdigit, hd.trans hu⟩

theorem finditer_ymd : (ymd R).finditer (searched first rest) = [] := by
  refine finditer_eq_nil_of_date (R := R) ?_
  rintro x ⟨v, m⟩ y h
  simp only [ymd, dateSeparator, mem_bind, mem_bound, mem_year, mem_one, mem_pure,
    Prod.mk.injEq] at h
  obtain ⟨_, _, ⟨rfl, -⟩, v, _, ⟨hv, -⟩, c, _, ⟨hs, hc⟩, m, _, hm, _, _, ⟨hs', -⟩, _, _, hd, _,
    _, ⟨rfl, -⟩, ⟨rfl, rfl⟩, rfl⟩ := h
  obtain ⟨d, u, rfl, hdigit, hm⟩ := mem_oneOrTwoDigits_cons hm
  have hleads := hv.trans ((hs.trans hm).trans (hs'.trans (mem_oneOrTwoDigits hd)))
  exact ⟨v, [c, d], _, by rw [List.append_assoc]; exact hleads, c, d, rfl, hc, hdigit⟩

theorem finditer_dmy : (dmy R).finditer (searched first rest) = [] := by
  refine finditer_eq_nil_of_date (R := R) ?_
  rintro x ⟨v, m⟩ y h
  simp only [dmy, dateSeparator, mem_bind, mem_bound, mem_year, mem_one, mem_pure,
    Prod.mk.injEq] at h
  obtain ⟨_, _, ⟨rfl, -⟩, u, _, hd, c, _, ⟨hs, hc⟩, m, _, hm, _, _, ⟨hs', -⟩, v, _, ⟨hv, -⟩, _,
    _, ⟨rfl, -⟩, ⟨rfl, rfl⟩, rfl⟩ := h
  obtain ⟨d, u', rfl, hdigit, hm⟩ := mem_oneOrTwoDigits_cons hm
  have hleads := (mem_oneOrTwoDigits hd).trans ((hs.trans hm).trans (hs'.trans hv))
  exact ⟨u, [c, d], _, by rw [List.append_assoc]; exact hleads, c, d, rfl, hc, hdigit⟩

/-! ## Lists -/

theorem casefold_ascii {s : List Char} (h : ∀ c ∈ s, c.toNat < 128) :
    R.casefold s = s.map Char.toLower := by
  induction s with
  | nil => rfl
  | cons c s ih =>
    obtain ⟨hc, hs⟩ := List.forall_mem_cons.mp h
    rw [List.map_cons, ← ih hs, PeriodText.casefold, List.flatMap_cons, R.caseFold_ascii c hc]
    rfl

theorem toLower_of_isDigit {c : Char} (h : c.isDigit = true) : c.toLower = c :=
  forall_ascii (P := fun c => c.isDigit = true → c.toLower = c) (by decide)
    (toNat_lt_of_digit h) h

theorem casefold_text (r : Reference) : R.casefold r.text = r.folded := by
  have hmark : r.mark.toNat < 128 ∧ r.mark.toLower = r.mark := by
    rcases r.mark_mem with h | h <;> rw [h] <;> decide
  have hquarter := r.quarterChar_facts.1
  rw [casefold_ascii]
  · rw [Reference.text, Reference.folded, List.map_append]
    congr 1
    · have hsame : r.yearText.map Char.toLower = r.yearText.map id :=
        List.map_congr_left fun c hc => toLower_of_isDigit (r.isDigit_yearText hc)
      rw [hsame, List.map_id]
    · simp only [List.map_cons, List.map_nil, hmark.2, toLower_of_isDigit hquarter]
      rfl
  · intro c hc
    rw [Reference.text, List.mem_append] at hc
    rcases hc with hc | hc
    · exact toNat_lt_of_digit (r.isDigit_yearText hc)
    · simp only [List.mem_cons, List.not_mem_nil, or_false] at hc
      rcases hc with rfl | rfl | rfl
      exacts [hmark.1, by decide, toNat_lt_of_digit hquarter]

theorem casefold_join (join : Join) : R.casefold join.text = join.text := by
  rw [casefold_ascii]
  · cases join <;> decide
  · intro c hc
    have hall : (join.text.all fun c => decide (c.toNat < 128)) = true := by
      cases join <;> decide
    exact of_decide_eq_true (List.all_eq_true.mp hall c hc)

/-- The list, folded. -/
theorem casefold_joined (first : Reference) (rest : List (Join × Reference)) :
    R.casefold (joined Reference.text first rest) = searched first rest := by
  have happend : ∀ s t : List Char, R.casefold (s ++ t) = R.casefold s ++ R.casefold t :=
    fun _ _ => List.flatMap_append
  rw [joined, happend, casefold_text, searched, joined]
  congr 1
  induction rest with
  | nil => rfl
  | cons head rest ih =>
    obtain ⟨join, r⟩ := head
    rw [behind_cons, behind_cons, happend, casefold_join, joined, joined, happend, casefold_text,
      ih]

/-- No month is in a list. -/
theorem not_monthBesideYear {source v m : List Char}
    (h : R.casefold source = searched first rest) : ¬ MonthBesideYear R source v m := by
  rintro ⟨-, ⟨name, hname, hspelt⟩, b, -, -, hstands⟩
  have hm : m <:+: searched first rest := by
    rw [h] at hstands
    rcases hstands with hstands | hstands
    · exact List.IsInfix.trans ⟨[], b ++ v, by simp⟩ hstands.infix
    · exact List.IsInfix.trans ⟨v ++ b, [], by simp⟩ hstands.infix
  have hnames : ((monthToQuarter.map (·.1)).all fun name => !name.isEmpty) = true := by
    decide
  have hnone : ("0123456789/-q, ".toList.all fun d => !(monthToQuarter.map (·.1)).any fun name =>
      name.head?.any fun c => anyCase c d) = true := by
    decide
  cases hspelt with
  | nil => exact absurd (List.all_eq_true.mp hnames _ hname) (by decide)
  | cons hfirst _ =>
    have hnot := not_of_mem_searched hnone (hm.subset List.mem_cons_self)
    rw [Bool.eq_false_iff] at hnot
    exact hnot (List.any_eq_true.mpr ⟨_, hname, by simpa using hfirst⟩)

/-- The keys that need no month are **those of the list and those across blanks**. -/
theorem mem_plainKeys_searched {key : PeriodKey} :
    key ∈ plainKeys R (searched first rest) ↔
      key ∈ listed first rest ∨ key ∈ crossings first rest := by
  simp only [plainKeys, finditer_quarterThenYear, finditer_yearThenWordQuarter,
    finditer_wordQuarterThenYear, finditer_ymd, finditer_dmy, List.map_nil, List.filterMap_nil,
    List.append_nil, List.mem_append, List.mem_map, Prod.exists, mem_yearThenQuarter_iff,
    mem_quarterLabelThenYear_iff]
  refine or_congr ?_ ?_
  · constructor
    · rintro ⟨_, _, ⟨r, rest', hgoes, rfl, rfl⟩, rfl⟩
      rw [r.int_yearText, r.int_quarterChar]
      exact hgoes.mem
    · intro h
      obtain ⟨r, rest', hgoes, rfl⟩ := exists_goesOn_of_mem h
      exact ⟨_, _, ⟨r, rest', hgoes, rfl, rfl⟩, by
        rw [r.int_yearText, r.int_quarterChar]
        rfl⟩
  · rw [mem_crossings_iff]
    constructor
    · rintro ⟨_, _, ⟨r, r', rest', hgoes, rfl, rfl⟩, rfl⟩
      rw [r'.int_yearText, r.int_quarterChar]
      exact ⟨r, r', rest', hgoes, rfl⟩
    · rintro ⟨r, r', rest', hgoes, rfl⟩
      exact ⟨_, _, ⟨r, r', rest', hgoes, rfl, rfl⟩, by rw [r'.int_yearText, r.int_quarterChar]⟩

/-- **A list is read** as its keys and those across blanks, and nothing else. -/
theorem parsePeriodKeys_joined (R : PeriodText) (first : Reference)
    (rest : List (Join × Reference)) :
    ∃ keys, parsePeriodKeys R (joined Reference.text first rest) = .ok keys ∧
      ∀ key, key ∈ keys ↔ key ∈ listed first rest ∨ key ∈ crossings first rest := by
  have hfold := casefold_joined (R := R) first rest
  have hmonths : ∀ groups, ¬ (groups ∈ (monthThenYear R).finditer (searched first rest) ∨
      groups ∈ (yearThenMonth R).finditer (searched first rest)) := by
    intro groups h
    rw [← hfold] at h
    exact not_monthBesideYear hfold (mem_months_iff.mp h)
  have hnone : (monthThenYear R).finditer (searched first rest) = [] ∧
      (yearThenMonth R).finditer (searched first rest) = [] :=
    ⟨List.eq_nil_iff_forall_not_mem.mpr fun groups h => hmonths groups (.inl h),
      List.eq_nil_iff_forall_not_mem.mpr fun groups h => hmonths groups (.inr h)⟩
  have hplain : plainKeys R (searched first rest) ≠ [] :=
    List.ne_nil_of_mem (mem_plainKeys_searched.mpr (.inl List.mem_cons_self))
  refine ⟨plainKeys R (searched first rest), ?_, fun key => mem_plainKeys_searched⟩
  have hne : joined Reference.text first rest ≠ [] := by
    intro h
    rw [h] at hfold
    have := congrArg List.length hfold
    simp only [PeriodText.casefold, List.flatMap_nil, List.length_nil, joined, List.length_append,
      length_folded] at this
    omega
  refine (parsePeriodKeys_eq_ok hne).mpr ⟨[], [], ?_, ?_, ?_⟩
  · rw [hfold, hnone.1]
    rfl
  · rw [hfold, hnone.2]
    rfl
  · rw [hfold, List.append_nil, List.append_nil, if_neg hplain]

end PeriodExpression

/-! ## Stored periods -/

/-- A period is stored as its columns, its label and its key say. -/
structure StoredAs (period : CanonicalPeriod) (stored : ReportingPeriod) : Prop where
  fiscalYear : stored.fiscalYear = period.year
  quarter : stored.quarter = some period.quarter
  label : stored.label = String.ofList (Reference.text ⟨period, true⟩)
  comparisonKey : stored.comparisonKey = String.ofList (Reference.text ⟨period, false⟩)

namespace PeriodExpression

variable {R : PeriodText} {first : Reference} {rest : List (Join × Reference)}

/-- A stored period has one key. -/
theorem periodRecordKeys_of_storedAs {period : CanonicalPeriod} {stored : ReportingPeriod}
    (h : StoredAs period stored) :
    ∃ keys, periodRecordKeys R stored = .ok (period.key :: keys) ∧
      ∀ key ∈ keys, key = period.key := by
  have hone : ∀ slash, ∃ keys, parsePeriodKeys R (Reference.text ⟨period, slash⟩) = .ok keys ∧
      ∀ key ∈ keys, key = period.key := by
    intro slash
    obtain ⟨keys, hkeys, hmem⟩ := parsePeriodKeys_joined R ⟨period, slash⟩ []
    refine ⟨keys, by simpa [joined, behind] using hkeys, fun key hkey => ?_⟩
    simpa [listed, crossings] using (hmem key).mp hkey
  obtain ⟨label, hlabel, hlabels⟩ := hone true
  obtain ⟨key, hkey, hkeys⟩ := hone false
  refine ⟨label ++ key, ?_, fun k hk => (List.mem_append.mp hk).elim (hlabels k) (hkeys k)⟩
  rw [periodRecordKeys, h.label, h.comparisonKey, h.fiscalYear, h.quarter, String.toList_ofList,
    String.toList_ofList, hlabel, hkey]
  rfl

theorem quarter_isSome_of_mem {key : PeriodKey}
    (h : key ∈ listed first rest ∨ key ∈ crossings first rest) : key.quarter.isSome = true := by
  rcases h with h | h
  · obtain ⟨r, -, rfl⟩ := List.mem_map.mp h
    rfl
  · obtain ⟨r, r', rest', -, rfl⟩ := mem_crossings_iff.mp h
    rfl

/-- Keys with a quarter match if they are equal. -/
theorem eq_of_matchesKey {a : PeriodKey} {period : CanonicalPeriod}
    (ha : a.quarter.isSome = true) (h : a.matchesKey period.key = true) : a = period.key := by
  obtain ⟨year, quarter⟩ := a
  obtain ⟨q, rfl⟩ := Option.isSome_iff_exists.mp ha
  simp only [PeriodKey.matchesKey, CanonicalPeriod.key, Option.isNone_some, Bool.false_or,
    Bool.and_eq_true, beq_iff_eq] at h
  rw [CanonicalPeriod.key, h.1, h.2]

/-- A list **names a stored period** if it has its key, or has it across a blank. -/
theorem textMatchesPeriod_joined_iff {period : CanonicalPeriod} {stored : ReportingPeriod}
    (h : StoredAs period stored) :
    textMatchesPeriod R (joined Reference.text first rest) stored = .ok true ↔
      period.key ∈ listed first rest ∨ period.key ∈ crossings first rest := by
  obtain ⟨asked, hasked, hmem⟩ := parsePeriodKeys_joined R first rest
  obtain ⟨keys, hstored, hkeys⟩ := periodRecordKeys_of_storedAs (R := R) h
  have hne : asked ≠ [] := List.ne_nil_of_mem ((hmem first.key).mpr (.inl List.mem_cons_self))
  have hvalue : textMatchesPeriod R (joined Reference.text first rest) stored =
      .ok (asked.any fun a => (period.key :: keys).any fun s => a.matchesKey s) := by
    rw [textMatchesPeriod, hasked]
    change (if asked = [] then _ else _) = _
    rw [if_neg hne, hstored]
    rfl
  rw [hvalue, Except.ok.injEq, List.any_eq_true, ← hmem]
  constructor
  · rintro ⟨a, ha, hany⟩
    obtain ⟨s, hs, hmatch⟩ := List.any_eq_true.mp hany
    have hkey : s = period.key := by
      rcases List.mem_cons.mp hs with hs | hs
      exacts [hs, hkeys s hs]
    have hquarter := quarter_isSome_of_mem ((hmem a).mp ha)
    rw [hkey] at hmatch
    rwa [← eq_of_matchesKey hquarter hmatch]
  · intro hmem
    exact ⟨period.key, hmem, List.any_eq_true.mpr ⟨_, List.mem_cons_self, by
      simp [PeriodKey.matchesKey]⟩⟩

/-- **A list is read exactly**, and names no stored period but its own, if and only if every
quarter with the year across a blank is listed as well. -/
theorem listing_exact_iff (R : PeriodText) (first : Reference) (rest : List (Join × Reference)) :
    (∃ keys, parsePeriodKeys R (joined Reference.text first rest) = .ok keys ∧
      (∀ key, key ∈ keys ↔ key ∈ listed first rest) ∧
      ∀ period stored, StoredAs period stored →
        textMatchesPeriod R (joined Reference.text first rest) stored = .ok true →
          period.key ∈ listed first rest) ↔
      ∀ key ∈ crossings first rest, key ∈ listed first rest := by
  obtain ⟨keys, hkeys, hmem⟩ := parsePeriodKeys_joined R first rest
  constructor
  · rintro ⟨keys', hkeys', hmem', -⟩ key hkey
    obtain rfl := Except.ok.inj (hkeys.symm.trans hkeys')
    exact (hmem' key).mp ((hmem key).mpr (.inr hkey))
  · intro hcrossings
    refine ⟨keys, hkeys, fun key => ?_, fun period stored hstored hmatch => ?_⟩
    · rw [hmem]
      exact or_iff_left_of_imp (hcrossings key)
    · exact ((textMatchesPeriod_joined_iff hstored).mp hmatch).elim id (hcrossings _)

end PeriodExpression

/-- The first quarter of 2024 and the second one of 2025, with a blank between them. -/
def twoQuarters : Reference × List (Join × Reference) :=
  (⟨⟨2024, 1, by decide, by decide⟩, false⟩, [(.blank, ⟨⟨2025, 2, by decide, by decide⟩, false⟩)])

/-- *2024-Q1 2025-Q2* also reads the first quarter of 2025. -/
theorem not_listing_exact : ¬ ∃ keys,
    PeriodExpression.parsePeriodKeys .turkish
      (joined Reference.text twoQuarters.1 twoQuarters.2) = .ok keys ∧
      (∀ key, key ∈ keys ↔ key ∈ listed twoQuarters.1 twoQuarters.2) ∧
      ∀ period stored, StoredAs period stored →
        PeriodExpression.textMatchesPeriod .turkish
          (joined Reference.text twoQuarters.1 twoQuarters.2) stored = .ok true →
          period.key ∈ listed twoQuarters.1 twoQuarters.2 := by
  have hread : PeriodExpression.parsePeriodKeys .turkish
      (joined Reference.text twoQuarters.1 twoQuarters.2) =
      .ok [⟨2024, some 1⟩, ⟨2025, some 2⟩, ⟨2025, some 1⟩] := by decide +kernel
  rintro ⟨keys, hkeys, hmem, -⟩
  obtain rfl := Except.ok.inj (hread.symm.trans hkeys)
  have hlisted : (⟨2025, some 1⟩ : PeriodKey) ∉ listed twoQuarters.1 twoQuarters.2 := by decide
  exact hlisted ((hmem ⟨2025, some 1⟩).mp (by decide))

end FinanceIntelligence
