import FinanceIntelligence.QualityGate
import FinanceIntelligence.Scanning

/-!
# The numbers that the gate sees

`extract_numbers_from_text` (quality_gate.py) gives the gate the numbers of a narrative, and
what it does not give is never verified. A number has to start and end at a boundary of words,
so that digits with a letter, or an underscore, on one side are not seen.

* `runCovered_iff` — a run of digits lies in a token **exactly if** no word character touches
  it;
* `missesNoNumber_iff` — the scanner **misses no number** of a text exactly if that holds
  of every run;
* `scanner_misses_number` — in `1250TL` it **misses one**.
-/

namespace FinanceIntelligence

namespace NumericClaimVerifier

variable (U : CharClass)

/-- The tokens with their places: where they start and where they end. -/
def tokenSpans (text : List Char) : List (Spot × Unit × Spot) :=
  scan (firstEnd U (numberPattern U)) text

/-- The tokens are the texts at these places. -/
theorem extractNumbersFromText_eq (text : List Char) :
    extractNumbersFromText U text = (tokenSpans U text).map fun (x, _, y) => x.upTo y :=
  findAll_eq_map_scan U (numberPattern U) text

/-- A character of any script's digits. -/
def isDigit (c : Char) : Bool := (U.digit c).isSome

/-- **A maximal run of digits**, between what stands before it and behind it. -/
structure DigitRun (before run after : List Char) : Prop where
  /-- there is a digit -/
  nonempty : run ≠ []
  /-- all are digits -/
  digits : ∀ c ∈ run, isDigit U c = true
  /-- the run does not begin earlier -/
  left : before.getLast?.any (isDigit U) = false
  /-- it does not end later -/
  right : after.head?.any (isDigit U) = false

/-- The run lies inside a token. -/
def RunCovered (before run after : List Char) : Prop :=
  ∃ x y, (x, (), y) ∈ tokenSpans U (before ++ (run ++ after)) ∧
    (run ++ after).length ≤ x.rest.length ∧ y.rest.length ≤ after.length

/-- No word character touches the run. -/
def Untouched (before after : List Char) : Prop :=
  before.getLast?.any U.word = false ∧ after.head?.any U.word = false

/-- What a token may hold besides digits. -/
def isMark (c : Char) : Bool := c == '.' || c == ',' || c == '%'

variable {U} {before run after : List Char}

/-! ## Tokens -/

/-- What holds of every end of the pattern. -/
structure TokenEnd (U : CharClass) (x : Spot) (m : List Char) (y : Spot) : Prop where
  /-- the end is a later place -/
  leads : x.Leads m y
  /-- something is read -/
  nonempty : m ≠ []
  /-- digits and marks are read -/
  chars : ∀ c ∈ m, isDigit U c = true ∨ isMark c = true
  /-- a token starts at a boundary -/
  start : Regex.atBoundary U x = true
  /-- it ends at a boundary -/
  stop : Regex.atBoundary U y = true

theorem tokenEnd_of_mem {x y : Spot} (h : y ∈ Regex.ends U (numberPattern U) x) :
    ∃ m, TokenEnd U x m y := by
  obtain ⟨m, hleads, hlang⟩ := Regex.leads_lang_of_mem_ends h
  have hwithin : (numberPattern U).Within fun c => isDigit U c || isMark c := by
    simp only [numberPattern, Regex.plus, digit, Regex.Within, isDigit, isMark]
    refine ⟨trivial, ⟨?_, ?_⟩, ⟨?_, ?_, ?_⟩, ⟨?_, ?_, ?_⟩, ?_, trivial⟩ <;>
      · intro c hc
        simp_all
  refine ⟨m, hleads, ?_, ?_, ?_, ?_⟩
  · -- the pattern starts with a digit
    obtain ⟨_, _, rfl, -, _, _, rfl, ⟨_, _, rfl, ⟨c, rfl, -⟩, -⟩, -⟩ := hlang
    simp
  · simpa using Regex.all_of_lang hwithin hlang
  · obtain ⟨z, hz, -⟩ := Regex.mem_ends_seq.mp h
    exact (Regex.mem_ends_bound.mp hz).2
  · simp only [numberPattern, Regex.mem_ends_seq] at h
    obtain ⟨_, -, _, -, _, -, _, -, z, -, hz⟩ := h
    obtain ⟨rfl, hstop⟩ := Regex.mem_ends_bound.mp hz
    exact hstop

theorem reads_firstEnd : Reads (firstEnd U (numberPattern U)) := by
  intro x _ y h
  obtain ⟨z, hz, heq⟩ := Option.map_eq_some_iff.mp h
  obtain rfl : z = y := (Prod.mk.inj heq).2
  obtain ⟨m, hm⟩ := tokenEnd_of_mem (List.mem_of_mem_head? hz)
  exact ⟨m, hm.nonempty, hm.leads⟩

/-- A token that was found starts at a place of the text and ends at a later one. -/
theorem tokenEnd_of_mem_tokenSpans {text : List Char} {x y : Spot}
    (h : (x, (), y) ∈ tokenSpans U text) :
    (∃ m, (Spot.start text).Leads m x) ∧ ∃ m, TokenEnd U x m y := by
  obtain ⟨hmatch, hplace⟩ := mem_scanFrom reads_firstEnd h
  obtain ⟨z, hz, heq⟩ := Option.map_eq_some_iff.mp hmatch
  obtain rfl : z = y := (Prod.mk.inj heq).2
  exact ⟨hplace, tokenEnd_of_mem (List.mem_of_mem_head? hz)⟩

/-! ## Runs of digits -/

theorem word_of_isDigit {c : Char} (h : isDigit U c = true) : U.word c = true :=
  U.word_of_digit c h

/-- Digits on both sides are no boundary. -/
theorem atBoundary_eq_false {x : Spot} (hprev : x.prev.any (isDigit U) = true)
    (hnext : x.rest.head?.any (isDigit U) = true) : Regex.atBoundary U x = false := by
  have hword : ∀ {o : Option Char}, o.any (isDigit U) = true → o.any U.word = true := by
    intro o ho
    cases o with
    | none => cases ho
    | some c => exact word_of_isDigit ho
  rw [Regex.atBoundary, hword hprev, hword hnext]
  rfl

/-- Where a run starts and ends that no word character touches, there are boundaries. -/
theorem DigitRun.atBoundary (h : DigitRun U before run after) (happart : Untouched U before after) :
    Regex.atBoundary U ⟨before.getLast?, run ++ after⟩ = true ∧
      Regex.atBoundary U ⟨run.getLast?, after⟩ = true := by
  have hhead : (run ++ after).head?.any U.word = true := by
    obtain ⟨c, run, rfl⟩ := List.exists_cons_of_ne_nil h.nonempty
    simpa using word_of_isDigit (h.digits c List.mem_cons_self)
  have hlast : run.getLast?.any U.word = true := by
    rw [List.getLast?_eq_some_getLast h.nonempty]
    exact word_of_isDigit (h.digits _ (List.getLast_mem h.nonempty))
  simp only [Regex.atBoundary, happart.1, happart.2, hhead, hlast]
  decide

/-- From the start of such a run the pattern reaches its end. -/
theorem DigitRun.mem_ends (h : DigitRun U before run after) (happart : Untouched U before after) :
    ⟨run.getLast?, after⟩ ∈ Regex.ends U (numberPattern U) ⟨before.getLast?, run ++ after⟩ := by
  obtain ⟨hstart, hstop⟩ := h.atBoundary happart
  obtain ⟨c, run', rfl⟩ := List.exists_cons_of_ne_nil h.nonempty
  obtain ⟨hc, hrun⟩ := List.forall_mem_cons.mp h.digits
  have hplus : (⟨(c :: run').getLast?, after⟩ : Spot) ∈
      Regex.ends U (.plus (digit U)) ⟨before.getLast?, c :: run' ++ after⟩ := by
    have hleads : Spot.Leads ⟨before.getLast?, c :: run' ++ after⟩ (c :: run')
        ⟨(c :: run').getLast?, after⟩ := ⟨rfl, rfl⟩
    refine Regex.mem_ends_seq.mpr ⟨⟨some c, run' ++ after⟩, ?_,
      Regex.mem_ends_star_one hrun (Spot.leads_cons_iff.mp hleads).2⟩
    rw [isDigit] at hc
    simp [digit, Regex.ends, hc]
  simp only [numberPattern, Regex.mem_ends_seq, Regex.mem_ends_bound]
  exact ⟨_, ⟨rfl, hstart⟩, _, hplus, _, Regex.self_mem_ends_star _, _, Regex.self_mem_ends_opt _,
    _, Regex.self_mem_ends_opt _, rfl, hstop⟩

/-- No boundary lies inside a run. -/
theorem DigitRun.not_atBoundary (h : DigitRun U before run after) {m : List Char} {y : Spot}
    (hleads : Spot.Leads ⟨before.getLast?, run ++ after⟩ m y) (hm : m ≠ [])
    (hinside : after.length < y.rest.length) : Regex.atBoundary U y = false := by
  -- what is read and what is left of the run are both digits
  obtain ⟨left, hleft, rfl⟩ : ∃ left, y.rest = left ++ after ∧ run = m ++ left := by
    have hprefix : m <+: run := by
      refine List.prefix_of_prefix_length_le ⟨y.rest, hleads.rest.symm⟩ (List.prefix_append _ _) ?_
      have := hleads.length
      simp only [List.length_append] at this
      omega
    obtain ⟨left, rfl⟩ := hprefix
    refine ⟨left, ?_, rfl⟩
    have hrest := hleads.rest
    simp only [List.append_assoc] at hrest
    exact (List.append_cancel_left hrest).symm
  refine atBoundary_eq_false ?_ ?_
  · rw [hleads.prev, List.getLast?_eq_some_getLast hm]
    exact h.digits _ (List.mem_append_left _ (List.getLast_mem hm))
  · cases left with
    | nil => simp [hleft] at hinside
    | cons c left =>
      rw [hleft]
      exact h.digits c (by simp)

/-- A run that no word character touches lies inside a token. -/
theorem DigitRun.covered (h : DigitRun U before run after) (happart : Untouched U before after) :
    RunCovered U before run after := by
  have hmatch : (firstEnd U (numberPattern U) ⟨before.getLast?, run ++ after⟩).isSome = true := by
    rw [firstEnd, Option.isSome_map, List.isSome_head?]
    exact List.ne_nil_of_mem (h.mem_ends happart)
  obtain ⟨x, _, y, hmem, ⟨m, hxs⟩, hbehind⟩ := exists_mem_scanFrom reads_firstEnd
    (Nat.le_refl _) (Spot.leads_start before (run ++ after)) hmatch
  obtain ⟨-, m', htoken⟩ := tokenEnd_of_mem_tokenSpans hmem
  have hlength := hxs.length
  refine ⟨x, y, hmem, by dsimp only at hlength; omega, Nat.le_of_not_lt fun hinside => ?_⟩
  -- the token ends at a boundary, and so not inside the run
  obtain ⟨m'', hsy, -⟩ := hxs.of_length_le htoken.leads (Nat.le_of_lt hbehind)
  have hne : m'' ≠ [] := by
    rintro rfl
    rw [hsy.rest, List.nil_append] at hbehind
    exact Nat.lt_irrefl _ hbehind
  exact absurd htoken.stop (by simp [h.not_atBoundary hsy hne hinside])

/-- A character next to a run that a token holds is no word character. -/
theorem not_word_of_token (hU : ∀ c, isMark c = true → U.word c = false) {c : Char}
    (hdigit : isDigit U c = false) (hc : isDigit U c = true ∨ isMark c = true) :
    U.word c = false := by
  rcases hc with hc | hc
  · rw [hdigit] at hc
    cases hc
  · exact hU c hc

/-- **A run lies inside a token** exactly if no word character touches it. -/
theorem runCovered_iff (hU : ∀ c, isMark c = true → U.word c = false)
    (h : DigitRun U before run after) :
    RunCovered U before run after ↔ Untouched U before after := by
  refine ⟨?_, h.covered⟩
  rintro ⟨x, y, hmem, hx, hy⟩
  obtain ⟨⟨m₀, hplace⟩, m, htoken⟩ := tokenEnd_of_mem_tokenSpans hmem
  obtain ⟨left, hxs, -⟩ := hplace.of_length_le (Spot.leads_start before (run ++ after)) hx
  have hse : Spot.Leads ⟨before.getLast?, run ++ after⟩ run ⟨run.getLast?, after⟩ := by
    refine ⟨rfl, ?_⟩
    rw [List.getLast?_eq_some_getLast h.nonempty]
    rfl
  obtain ⟨right, hey, hm⟩ := (hxs.trans hse).of_length_le htoken.leads hy
  obtain ⟨c₀, run', hrun⟩ := List.exists_cons_of_ne_nil h.nonempty
  constructor
  · rcases List.eq_nil_or_concat left with rfl | ⟨left', c, rfl⟩
    · -- the token starts with the run, at a boundary
      obtain rfl : x = ⟨before.getLast?, run ++ after⟩ := Spot.ext hxs.prev.symm hxs.rest
      have hword : U.word c₀ = true := word_of_isDigit (h.digits c₀ (by simp [hrun]))
      have hstart := htoken.start
      rw [Regex.atBoundary, hrun] at hstart
      simpa [hword] using hstart
    · -- what the token reads before the run is a mark
      have hlast : before.getLast? = some c := by
        have := hxs.prev
        rwa [List.concat_eq_append, List.getLast?_concat, Option.some_or] at this
      have hleft := h.left
      rw [hlast] at hleft ⊢
      exact not_word_of_token hU hleft (htoken.chars c (by simp [hm]))
  · cases right with
    | nil =>
      obtain rfl : ⟨run.getLast?, after⟩ = y := Spot.ext hey.prev.symm hey.rest
      have hword : run.getLast?.any U.word = true := by
        rw [List.getLast?_eq_some_getLast h.nonempty]
        exact word_of_isDigit (h.digits _ (List.getLast_mem h.nonempty))
      have hstop := htoken.stop
      rw [Regex.atBoundary, hword] at hstop
      simpa using hstop
    | cons c right =>
      have hhead : after.head? = some c := by
        have := hey.rest
        dsimp only at this
        rw [this, List.cons_append, List.head?_cons]
      have hright := h.right
      rw [hhead] at hright ⊢
      exact not_word_of_token hU hright (htoken.chars c (by simp [hm]))

/-- **The scanner misses no number** of a text: every maximal run of digits lies inside a token. -/
def MissesNoNumber (U : CharClass) (text : List Char) : Prop :=
  ∀ before run after, text = before ++ (run ++ after) → DigitRun U before run after →
    RunCovered U before run after

/-- **The scanner misses no number** of a text exactly if no word character touches a run of
digits. -/
theorem missesNoNumber_iff (hU : ∀ c, isMark c = true → U.word c = false) (text : List Char) :
    MissesNoNumber U text ↔ ∀ before run after, text = before ++ (run ++ after) →
      DigitRun U before run after → Untouched U before after :=
  forall₃_congr fun _ _ _ => imp_congr_right fun _ => imp_congr_right fun h => runCovered_iff hU h

theorem ascii_marks : ∀ c, isMark c = true → CharClass.ascii.word c = false := by
  intro c hc
  simp only [isMark, Bool.or_eq_true, beq_iff_eq] at hc
  rcases hc with (rfl | rfl) | rfl <;> decide

/-- Of a text with its numbers apart, none is missed. -/
theorem missesNoNumber_apart :
    MissesNoNumber .ascii "Net 1.250,5 TL, %12".toList ↔
      ∀ before run after, "Net 1.250,5 TL, %12".toList = before ++ (run ++ after) →
        DigitRun .ascii before run after → Untouched .ascii before after :=
  missesNoNumber_iff ascii_marks _

/-- **A number against a letter is missed**: nothing is read of `1250TL`. -/
theorem scanner_misses_number :
    extractNumbersFromText .ascii "Kar 1250TL".toList = [] ∧
      ¬ MissesNoNumber .ascii "Kar 1250TL".toList := by
  have hnone : extractNumbersFromText .ascii "Kar 1250TL".toList = [] := by decide
  refine ⟨hnone, fun h => ?_⟩
  obtain ⟨x, y, hmem, -⟩ := h "Kar ".toList "1250".toList "TL".toList rfl
    ⟨by decide, List.all_eq_true.mp (by decide), by decide, by decide⟩
  have htoken := List.mem_map_of_mem (f := fun (x, _, y) => Spot.upTo x y) hmem
  rw [extractNumbersFromText_eq] at hnone
  exact absurd (hnone ▸ htoken) List.not_mem_nil

end NumericClaimVerifier

end FinanceIntelligence
