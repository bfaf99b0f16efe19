import FinanceIntelligence.NumberParsing
import FinanceIntelligence.PeriodSafety
import FinanceIntelligence.Raising
import FinanceIntelligence.RequestSelection
import Mathlib.Data.List.TakeWhile

/-!
# Failing closed

`normalize_request` (request_normalizer.py) asks back if nothing of a request names an institution
or a period of the tenant. It matches by mutual containment, and an empty text is contained in
every other one: so a blank among the extracted texts selects all that has a name, and a period
with an empty label or key is selected by every text.

Here the matching of periods is the one of `PeriodExpression`, which may raise.

* `normalizeOrFail_eq_ok` — what is answered is what `normalizeRequest` answers;
* `failsClosed_iff` — a request **fails closed**, and is answered as without its blank texts,
  exactly if it is one of five kinds (`Closes`);
* `not_failsClosed` — one blank **selects every institution**.
-/

namespace FinanceIntelligence

namespace AnalysisRequestNormalizer

/-- What the normalizer has to know about texts. -/
structure PromptReading where
  /-- how texts are read -/
  text : TextReading
  /-- how periods are read in texts -/
  period : PeriodText
  /-- nothing is lowered to nothing -/
  lower_empty : text.lower "" = ""
  /-- what is stripped to nothing is blank -/
  strip_eq_empty_iff : ∀ s, text.strip s = "" ↔ ∀ c ∈ s.toList, period.chars.space c = true
  /-- a text matches a period as it is read -/
  textMatchesPeriod_eq : ∀ s per b,
    PeriodExpression.textMatchesPeriod period s.toList per = .ok b → text.textMatchesPeriod s per = b

variable (P : PromptReading)

/-- A blank text. -/
def isBlank (text : String) : Bool := P.text.strip text == ""

/-- The texts that are not blank. -/
def withoutBlanks (texts : List String) : List String := texts.filter fun text => !isBlank P text

/-- The extraction without its blank texts. -/
def cleaned (extracted : ExtractedRequestEntities) : ExtractedRequestEntities :=
  { extracted with
    requestedInstitutions := withoutBlanks P extracted.requestedInstitutions
    requestedPeriods := withoutBlanks P extracted.requestedPeriods }

/-! ## The normalizer, with what it raises -/

/-- `text_matches_period`. -/
def matchesPeriod (text : String) (per : ReportingPeriod) : Except KeyError Bool :=
  PeriodExpression.textMatchesPeriod P.period text.toList per

/-- The periods that a text is read as. -/
def readMatches (rows : List ReportingPeriod) (text : String) :
    Except KeyError (List ReportingPeriod) :=
  rows.foldlM (fun matched per =>
    if matched.contains per then .ok matched
    else do
      let found ← matchesPeriod P text per
      return if found then matched ++ [per] else matched) []

/-- The first text that is read as periods of the tenant. -/
def firstRead (rows : List ReportingPeriod) : List String → Except KeyError (List ReportingPeriod)
  | [] => .ok []
  | text :: texts => do
    let matched ← readMatches P rows text
    if matched = [] then firstRead rows texts else return matched

/-- The periods whose label or key an extracted text names, or else the prompt. -/
def containedPeriods (extracted : ExtractedRequestEntities) (prompt : String)
    (rows : List ReportingPeriod) : List ReportingPeriod :=
  orElse (extracted.requestedPeriods.foldl (addMatches (namesPeriod P.text) rows) [])
    (addMatches (promptNamesPeriod P.text) rows [] prompt)

/-- The periods of the request. -/
def matchPeriodsOrFail (extracted : ExtractedRequestEntities) (prompt : String)
    (rows : List ReportingPeriod) : Except KeyError (List ReportingPeriod) :=
  if containedPeriods P extracted prompt rows = [] then
    firstRead P rows (extracted.requestedPeriods ++ [prompt])
  else .ok (containedPeriods P extracted prompt rows)

/-- What is answered with the institutions and the periods. -/
def outcomeOf (extracted : ExtractedRequestEntities) (prompt : String) (tenant : TenantRecords)
    (institutions : List Institution) (periods : List ReportingPeriod) : NormalizationOutcome :=
  if institutions = [] then noTenantInstitutionFound tenant.institutions
  else if periods = [] then noTenantPeriodFound tenant.periods
  else
    { normalizedRequest := some
        { intent := intentOf extracted.intent
          requestedInstitutions := institutions.map (·.canonicalName)
          requestedPeriods := periods.map (·.comparisonKey)
          requestedSemanticMeasures := measuresOf P.text extracted prompt tenant.catalog
          reportingBasis := basisOf P.text extracted.reportingBasis }
      matchedInstitutionIds := institutions.map (·.id)
      matchedPeriodIds := periods.map (·.id) }

/-- `normalize_request`, of what the fast model extracted. -/
def normalizeOrFail (extracted : ExtractedRequestEntities) (prompt : String)
    (tenant : TenantRecords) : Except KeyError NormalizationOutcome :=
  if prompt = "" ∨ P.text.strip prompt = "" then .ok emptyPrompt
  else do
    let institutions := matchInstitutions P.text extracted prompt tenant.institutions
    let periods ← matchPeriodsOrFail P extracted prompt tenant.periods
    return outcomeOf P extracted prompt tenant institutions periods

/-! ## What a request names -/

variable (extracted : ExtractedRequestEntities) (prompt : String) (tenant : TenantRecords)

/-- The extracted text names the period, by a label or a key that is not empty. -/
def properlyNamesPeriod (requested : String) (per : ReportingPeriod) : Bool :=
  let cleanPer := P.text.lower (P.text.strip requested)
  [P.text.lower per.label, P.text.lower per.comparisonKey].any fun p =>
    p != "" && (within cleanPer p || within p cleanPer)

/-- A text that is not blank, or the prompt, names an institution of the tenant. -/
def InstitutionNamed : Prop :=
  ∃ inst ∈ tenant.institutions, promptNamesInstitution P.text prompt inst = true ∨
    ∃ text ∈ withoutBlanks P extracted.requestedInstitutions,
      namesInstitution P.text text inst = true

/-- A text that is not blank, or the prompt, names a period of the tenant. -/
def PeriodNamed : Prop :=
  ∃ per ∈ tenant.periods, promptNamesPeriod P.text prompt per = true ∨
    (∃ text ∈ withoutBlanks P extracted.requestedPeriods, properlyNamesPeriod P text per = true) ∨
    ∃ text ∈ withoutBlanks P extracted.requestedPeriods ++ [prompt],
      matchesPeriod P text per = .ok true

/-- The request is answered with a question. -/
def AsksBack (answer : Except KeyError NormalizationOutcome) : Prop :=
  ∃ outcome, answer = .ok outcome ∧ outcome.needsClarification = true

/-- Matching fails closed. -/
structure FailsClosed : Prop where
  /-- blank texts make no difference -/
  blanks : normalizeOrFail P extracted prompt tenant =
    normalizeOrFail P (cleaned P extracted) prompt tenant
  /-- without an institution, the answer is a question -/
  institutions : ¬ InstitutionNamed P extracted prompt tenant →
    AsksBack (normalizeOrFail P extracted prompt tenant)
  /-- and so it is without a period -/
  periods : ¬ PeriodNamed P extracted prompt tenant →
    AsksBack (normalizeOrFail P extracted prompt tenant)

/-! ## When it does -/

/-- A text, blank or not, or the prompt selects an institution. -/
def InstitutionSelected : Prop :=
  ∃ inst ∈ tenant.institutions, promptNamesInstitution P.text prompt inst = true ∨
    ∃ text ∈ extracted.requestedInstitutions, namesInstitution P.text text inst = true

/-- One of the texts or the prompt selects a period by containment. -/
def PeriodContained (texts : List String) : Prop :=
  ∃ per ∈ tenant.periods, promptNamesPeriod P.text prompt per = true ∨
    ∃ text ∈ texts, namesPeriod P.text text per = true

/-- A text is not read at all, and no text before it is read as a period. -/
def FailsIn (rows : List ReportingPeriod) (texts : List String) : Prop :=
  ∃ before text after, texts = before ++ text :: after ∧
    (∀ earlier ∈ before, ∀ per ∈ rows, matchesPeriod P earlier per = .ok false) ∧
    ∃ per ∈ rows, ∃ e, matchesPeriod P text per = .error e

/-- One of the extracted texts or the prompt is not read, and no text before it is read as a
period of the tenant. -/
def ReadingFails : Prop := FailsIn P tenant.periods (extracted.requestedPeriods ++ [prompt])

/-- An institution that has a name. -/
def hasName (inst : Institution) : Bool := (names P.text inst).any (· != "")

/-- The institutions that the texts name which are not blank, or else the prompt. -/
def askedInstitutions : List Institution :=
  orElse (named (namesInstitution P.text) tenant.institutions
      (withoutBlanks P extracted.requestedInstitutions))
    (named (promptNamesInstitution P.text) tenant.institutions [prompt])

/-- The periods that the texts name which are not blank, or else the prompt, or else the first
text that is read as one. -/
def askedPeriods : List ReportingPeriod :=
  orElse (named (namesPeriod P.text) tenant.periods (withoutBlanks P extracted.requestedPeriods)) <|
    orElse (named (promptNamesPeriod P.text) tenant.periods [prompt]) <|
      firstNonempty ((extracted.requestedPeriods ++ [prompt]).map fun text =>
        named P.text.textMatchesPeriod tenant.periods [text])

/-- The texts before the first blank one. -/
def beforeBlank (texts : List String) : List String := texts.takeWhile fun text => !isBlank P text

/-- If there is a blank, the institutions that are asked for are those that the texts before it
name, and then all others that have a name. -/
def HarmlessInstitutions : Prop :=
  (∃ text ∈ extracted.requestedInstitutions, isBlank P text = true) →
    let selected := namedBefore (namesInstitution P.text) (hasName P) tenant.institutions
      (beforeBlank P extracted.requestedInstitutions)
    selected.map (·.id) = (askedInstitutions P extracted prompt tenant).map (·.id) ∧
      selected.map (·.canonicalName) =
        (askedInstitutions P extracted prompt tenant).map (·.canonicalName)

/-- If there is a blank, the periods that are asked for are those that the texts before it name,
and then all others. -/
def HarmlessPeriods : Prop :=
  (∃ text ∈ extracted.requestedPeriods, isBlank P text = true) →
    let selected := namedBefore (namesPeriod P.text) (fun _ => true) tenant.periods
      (beforeBlank P extracted.requestedPeriods)
    selected.map (·.id) = (askedPeriods P extracted prompt tenant).map (·.id) ∧
      selected.map (·.comparisonKey) =
        (askedPeriods P extracted prompt tenant).map (·.comparisonKey)

/-- The requests that fail closed. -/
inductive Closes : Prop
  /-- the prompt is blank -/
  | emptyPrompt (h : P.text.strip prompt = "")
  /-- no institution is selected, and the periods of the other texts are read -/
  | noInstitution (h : ¬ InstitutionSelected P extracted prompt tenant)
    (hread : PeriodContained P prompt tenant (withoutBlanks P extracted.requestedPeriods) ∨
      ¬ ReadingFails P extracted prompt tenant)
  /-- an institution is named, and no period is selected in any way -/
  | noPeriod (hinst : InstitutionNamed P extracted prompt tenant)
    (hcontained : ¬ PeriodContained P prompt tenant extracted.requestedPeriods)
    (hread : ∀ text ∈ extracted.requestedPeriods ++ [prompt], ∀ per ∈ tenant.periods,
      matchesPeriod P text per = .ok false)
  /-- both are named, and a text is not read -/
  | fails (hinst : InstitutionNamed P extracted prompt tenant)
    (hper : PeriodNamed P extracted prompt tenant)
    (hcontained : ¬ PeriodContained P prompt tenant extracted.requestedPeriods)
    (hread : ReadingFails P extracted prompt tenant)
  /-- both are named, and blank texts add nothing -/
  | asked (hinst : InstitutionNamed P extracted prompt tenant)
    (hper : PeriodNamed P extracted prompt tenant)
    (hread : PeriodContained P prompt tenant (withoutBlanks P extracted.requestedPeriods) ∨
      ¬ ReadingFails P extracted prompt tenant)
    (hinsts : HarmlessInstitutions P extracted prompt tenant)
    (hpers : HarmlessPeriods P extracted prompt tenant)

/-! ## Blank texts -/

variable {P} {extracted : ExtractedRequestEntities} {prompt : String} {tenant : TenantRecords}
  {text : String} {texts : List String} {inst : Institution} {per : ReportingPeriod}
  {rows : List ReportingPeriod}

theorem mem_withoutBlanks : text ∈ withoutBlanks P texts ↔ text ∈ texts ∧ isBlank P text = false := by
  simp [withoutBlanks]

theorem within_empty (whole : String) : within "" whole = true := by
  rw [within]
  cases whole.toList <;> simp [isPartOf]

theorem lower_of_blank (h : isBlank P text = true) : P.text.lower (P.text.strip text) = "" := by
  rw [isBlank, beq_iff_eq] at h
  rw [h, P.lower_empty]

/-- A blank names every institution that has a name. -/
theorem namesInstitution_of_blank (h : isBlank P text = true) (inst : Institution) :
    namesInstitution P.text text inst = hasName P inst := by
  rw [namesInstitution, hasName, lower_of_blank h]
  simp only [within_empty, Bool.true_or, Bool.and_true]

/-- A blank names every period. -/
theorem namesPeriod_of_blank (h : isBlank P text = true) (per : ReportingPeriod) :
    namesPeriod P.text text per = true := by
  rw [namesPeriod, lower_of_blank h]
  simp [within_empty]

theorem parsePeriodKeys_of_no_digit {R : PeriodText} {source : List Char}
    (h : ∀ c ∈ source, R.isDigit c = false) :
    PeriodExpression.parsePeriodKeys R source = .ok [] := by
  have hyear : ∀ y, PeriodExpression.IsYear R y → ¬ y <:+: source := by
    intro y hy hsource
    obtain ⟨c, hc⟩ := List.exists_mem_of_ne_nil y hy.ne_nil
    have := hy.digits c hc
    rw [h c (hsource.subset hc)] at this
    cases this
  have hread : ¬ PeriodExpression.UnknownMonth R source := by
    rintro ⟨y, m, hbeside, -⟩
    obtain ⟨y', hy', hyear', -⟩ := PeriodExpression.fullYear_of_piece hbeside.infix hbeside.1
    exact hyear y' hyear' hy'
  obtain ⟨keys, hkeys⟩ := PeriodExpression.parsePeriodKeys_isOk_iff.mpr hread
  have hnone : keys = [] := by
    refine List.eq_nil_iff_forall_not_mem.mpr fun key hkey => ?_
    rcases (PeriodExpression.writtenKey_of_mem hkeys key hkey).year with
      ⟨y, hy, hyear', -⟩ | ⟨s, c, d, t, -, -, rfl, hc, -⟩
    · exact hyear y hyear' hy
    · rw [h c (by simp)] at hc
      cases hc
  rw [hkeys, hnone]

/-- A blank is read as no period. -/
theorem matchesPeriod_of_blank (h : isBlank P text = true) (per : ReportingPeriod) :
    matchesPeriod P text per = .ok false := by
  rw [isBlank, beq_iff_eq, P.strip_eq_empty_iff] at h
  have hnone : ∀ c ∈ text.toList, P.period.isDigit c = false := by
    intro c hc
    by_contra hdigit
    have := P.period.space_of_word c (PeriodExpression.word_of_isDigit (by simpa using hdigit))
    rw [h c hc] at this
    cases this
  rw [matchesPeriod, PeriodExpression.textMatchesPeriod, parsePeriodKeys_of_no_digit hnone]
  rfl

/-! ## What is selected -/

theorem hasName_of_namesInstitution (h : namesInstitution P.text text inst = true) :
    hasName P inst = true := by
  rw [namesInstitution, List.any_eq_true] at h
  obtain ⟨n, hn, hnames⟩ := h
  exact List.any_eq_true.mpr ⟨n, hn, (Bool.and_eq_true _ _ ▸ hnames).1⟩

theorem hasName_of_promptNamesInstitution (h : promptNamesInstitution P.text prompt inst = true) :
    hasName P inst = true := by
  rw [promptNamesInstitution, List.any_eq_true] at h
  obtain ⟨n, hn, hnames⟩ := h
  refine List.any_eq_true.mpr ⟨n, ?_, (Bool.and_eq_true _ _ ▸ hnames).1⟩
  simp only [List.mem_cons, List.not_mem_nil, or_false] at hn
  rcases hn with rfl | rfl <;> simp [names]

theorem matchInstitutions_eq : matchInstitutions P.text extracted prompt tenant.institutions =
    orElse (named (namesInstitution P.text) tenant.institutions extracted.requestedInstitutions)
      (named (promptNamesInstitution P.text) tenant.institutions [prompt]) := by
  rw [matchInstitutions, foldl_addMatches, addMatches_nil]

theorem matchInstitutions_cleaned :
    matchInstitutions P.text (cleaned P extracted) prompt tenant.institutions =
      askedInstitutions P extracted prompt tenant :=
  matchInstitutions_eq

theorem containedPeriods_eq : containedPeriods P extracted prompt rows =
    orElse (named (namesPeriod P.text) rows extracted.requestedPeriods)
      (named (promptNamesPeriod P.text) rows [prompt]) := by
  rw [containedPeriods, foldl_addMatches, addMatches_nil]

theorem matchInstitutions_eq_nil_iff :
    matchInstitutions P.text extracted prompt tenant.institutions = [] ↔
      ¬ InstitutionSelected P extracted prompt tenant := by
  rw [matchInstitutions_eq, orElse_eq_nil, named_eq_nil_iff, named_eq_nil_iff]
  simp only [InstitutionSelected, List.mem_singleton, forall_eq, not_exists, not_and, not_or,
    Bool.not_eq_true]
  constructor
  · rintro ⟨htexts, hprompt⟩ inst hinst
    exact ⟨hprompt inst hinst, htexts inst hinst⟩
  · intro h
    exact ⟨fun inst hinst => (h inst hinst).2, fun inst hinst => (h inst hinst).1⟩

theorem askedInstitutions_eq_nil_iff :
    askedInstitutions P extracted prompt tenant = [] ↔
      ¬ InstitutionNamed P extracted prompt tenant := by
  rw [← matchInstitutions_cleaned, matchInstitutions_eq_nil_iff]
  rfl

theorem containedPeriods_eq_nil_iff :
    containedPeriods P extracted prompt tenant.periods = [] ↔
      ¬ PeriodContained P prompt tenant extracted.requestedPeriods := by
  rw [containedPeriods_eq, orElse_eq_nil, named_eq_nil_iff, named_eq_nil_iff]
  simp only [PeriodContained, List.mem_singleton, forall_eq, not_exists, not_and, not_or,
    Bool.not_eq_true]
  constructor
  · rintro ⟨htexts, hprompt⟩ per hper
    exact ⟨hprompt per hper, htexts per hper⟩
  · intro h
    exact ⟨fun per hper => (h per hper).2, fun per hper => (h per hper).1⟩

/-! ## Reading -/

theorem readMatches_eq_ok {matched : List ReportingPeriod}
    (h : ∀ per ∈ rows, ∃ found, matchesPeriod P text per = .ok found) :
    rows.foldlM (fun matched per =>
      if matched.contains per then .ok matched
      else do
        let found ← matchesPeriod P text per
        return if found then matched ++ [per] else matched) matched =
      .ok (addMatches P.text.textMatchesPeriod rows matched text) := by
  induction rows generalizing matched with
  | nil => rfl
  | cons per rows ih =>
    obtain ⟨⟨found, hfound⟩, hrows⟩ := List.forall_mem_cons.mp h
    have hmatches := P.textMatchesPeriod_eq text per found hfound
    rw [List.foldlM_cons, addMatches, List.foldl_cons]
    by_cases hmem : per ∈ matched
    · rw [if_pos (by simpa using hmem), if_neg (by simp [hmem])]
      exact ih hrows
    · rw [if_neg (by simpa using hmem), hfound, hmatches]
      cases found with
      | true =>
        rw [if_pos (by simp [hmem])]
        exact ih hrows
      | false =>
        rw [if_neg (by simp)]
        exact ih hrows

theorem readMatches_eq_error {matched : List ReportingPeriod}
    (hmatched : ∀ per ∈ matched, matchesPeriod P text per = .ok true)
    (h : ∃ per ∈ rows, ∃ e, matchesPeriod P text per = .error e) :
    ∃ e, rows.foldlM (fun matched per =>
      if matched.contains per then .ok matched
      else do
        let found ← matchesPeriod P text per
        return if found then matched ++ [per] else matched) matched = .error e := by
  induction rows generalizing matched with
  | nil =>
    obtain ⟨per, hper, -⟩ := h
    exact absurd hper List.not_mem_nil
  | cons per rows ih =>
    rw [List.foldlM_cons]
    by_cases hmem : per ∈ matched
    · rw [if_pos (by simpa using hmem)]
      obtain ⟨per', hper', e, he⟩ := h
      rcases List.mem_cons.mp hper' with rfl | hper'
      · rw [hmatched per' hmem] at he
        cases he
      · exact ih hmatched ⟨per', hper', e, he⟩
    · rw [if_neg (by simpa using hmem)]
      cases hread : matchesPeriod P text per with
      | error e => exact ⟨e, rfl⟩
      | ok found =>
        have hrest : ∃ per ∈ rows, ∃ e, matchesPeriod P text per = .error e := by
          obtain ⟨per', hper', e, he⟩ := h
          rcases List.mem_cons.mp hper' with rfl | hper'
          · rw [hread] at he
            cases he
          · exact ⟨per', hper', e, he⟩
        cases found with
        | true =>
          refine ih (fun per' hper' => ?_) hrest
          rcases List.mem_append.mp hper' with hper' | hper'
          · exact hmatched per' hper'
          · rw [List.mem_singleton.mp hper', hread]
        | false => exact ih hmatched hrest

theorem firstNonempty_cons {α : Type} [DecidableEq α] (matched : List α) (others : List (List α)) :
    firstNonempty (matched :: others) = orElse matched (firstNonempty others) := by
  rw [firstNonempty, orElse, List.find?_cons]
  by_cases h : matched = []
  · simp [h, firstNonempty]
  · simp [h]

theorem failsIn_cons_iff :
    FailsIn P rows (text :: texts) ↔ (∃ per ∈ rows, ∃ e, matchesPeriod P text per = .error e) ∨
      (∀ per ∈ rows, matchesPeriod P text per = .ok false) ∧ FailsIn P rows texts := by
  constructor
  · rintro ⟨before, text', after, heq, hbefore, hfails⟩
    cases before with
    | nil =>
      obtain ⟨rfl, -⟩ := List.cons.inj heq
      exact .inl hfails
    | cons head before =>
      obtain ⟨rfl, rfl⟩ := List.cons.inj heq
      obtain ⟨hhead, hbefore⟩ := List.forall_mem_cons.mp hbefore
      exact .inr ⟨hhead, before, text', after, rfl, hbefore, hfails⟩
  · rintro (hfails | ⟨hhead, before, text', after, rfl, hbefore, hfails⟩)
    · exact ⟨[], text, texts, rfl, fun _ h => absurd h List.not_mem_nil, hfails⟩
    · exact ⟨text :: before, text', after, rfl, List.forall_mem_cons.mpr ⟨hhead, hbefore⟩, hfails⟩

/-- A text is read as some periods, as none, or not at all. -/
theorem readMatches_cases (P : PromptReading) (rows : List ReportingPeriod) (text : String) :
    (∃ e, readMatches P rows text = .error e ∧
      ∃ per ∈ rows, ∃ e, matchesPeriod P text per = .error e) ∨
    (∀ per ∈ rows, ∃ found, matchesPeriod P text per = .ok found) ∧
      readMatches P rows text = .ok (named P.text.textMatchesPeriod rows [text]) := by
  by_cases h : ∃ per ∈ rows, ∃ e, matchesPeriod P text per = .error e
  · obtain ⟨e, he⟩ : ∃ e, readMatches P rows text = .error e :=
      readMatches_eq_error (fun _ h => absurd h List.not_mem_nil) h
    exact .inl ⟨e, he, h⟩
  · have hread : ∀ per ∈ rows, ∃ found, matchesPeriod P text per = .ok found := by
      intro per hper
      cases hmatch : matchesPeriod P text per with
      | ok found => exact ⟨found, rfl⟩
      | error e => exact absurd ⟨per, hper, e, hmatch⟩ h
    refine .inr ⟨hread, ?_⟩
    rw [readMatches, readMatches_eq_ok hread, addMatches_nil]

theorem readsNone_iff (hread : ∀ per ∈ rows, ∃ found, matchesPeriod P text per = .ok found) :
    named P.text.textMatchesPeriod rows [text] = [] ↔
      ∀ per ∈ rows, matchesPeriod P text per = .ok false := by
  rw [named_eq_nil_iff]
  refine forall₂_congr fun per hper => ?_
  obtain ⟨found, hfound⟩ := hread per hper
  rw [List.forall_mem_singleton, P.textMatchesPeriod_eq text per found hfound, hfound,
    Except.ok.injEq]

/-- **The first text that is read** as periods, if every text before is read. -/
theorem firstRead_spec (P : PromptReading) (rows : List ReportingPeriod) (texts : List String) :
    (∃ e, firstRead P rows texts = .error e ∧ FailsIn P rows texts) ∨
    (¬ FailsIn P rows texts ∧ firstRead P rows texts =
      .ok (firstNonempty (texts.map fun text => named P.text.textMatchesPeriod rows [text]))) := by
  induction texts with
  | nil =>
    refine .inr ⟨?_, rfl⟩
    rintro ⟨before, text, after, heq, -⟩
    exact absurd heq.symm (List.append_ne_nil_of_right_ne_nil _ (List.cons_ne_nil _ _))
  | cons text texts ih =>
    rw [firstRead, failsIn_cons_iff]
    rcases readMatches_cases P rows text with
      ⟨e, he, hfails⟩ | ⟨hread, hmatched⟩
    · rw [he]
      exact .inl ⟨e, rfl, .inl hfails⟩
    · have hnotFails : ¬ ∃ per ∈ rows, ∃ e, matchesPeriod P text per = .error e := by
        rintro ⟨per, hper, e, he⟩
        obtain ⟨found, hfound⟩ := hread per hper
        rw [hfound] at he
        cases he
      rw [hmatched, List.map_cons, firstNonempty_cons, orElse]
      change (∃ e, (if named P.text.textMatchesPeriod rows [text] = [] then
          firstRead P rows texts else .ok _) = _ ∧ _) ∨ (_ ∧
        (if named P.text.textMatchesPeriod rows [text] = [] then
          firstRead P rows texts else .ok _) = _)
      by_cases hnone : named P.text.textMatchesPeriod rows [text] = []
      · have hall := (readsNone_iff hread).mp hnone
        rw [if_pos hnone, if_pos hnone]
        rcases ih with ⟨e, he, hfails⟩ | ⟨hok, heq⟩
        · exact .inl ⟨e, he, .inr ⟨hall, hfails⟩⟩
        · exact .inr ⟨fun h => h.elim hnotFails fun h => hok h.2, heq⟩
      · rw [if_neg hnone, if_neg hnone]
        refine .inr ⟨fun h => h.elim hnotFails fun h => hnone ((readsNone_iff hread).mpr h.1), rfl⟩

theorem failsIn_iff : FailsIn P rows texts ↔ ∃ e, firstRead P rows texts = .error e := by
  rcases firstRead_spec P rows texts with ⟨e, he, hfails⟩ | ⟨hnot, hok⟩
  · exact iff_of_true hfails ⟨e, he⟩
  · refine iff_of_false hnot ?_
    rintro ⟨e, he⟩
    rw [hok] at he
    cases he

theorem firstRead_eq_nil_iff : firstRead P rows texts = .ok [] ↔
    ∀ text ∈ texts, ∀ per ∈ rows, matchesPeriod P text per = .ok false := by
  induction texts with
  | nil => exact iff_of_true rfl fun _ h => absurd h List.not_mem_nil
  | cons text texts ih =>
    rw [List.forall_mem_cons, ← ih, firstRead]
    rcases readMatches_cases P rows text with
      ⟨e, he, per, hper, e', he'⟩ | ⟨hread, hmatched⟩
    · rw [he]
      refine iff_of_false (fun h => by cases h) fun h => ?_
      rw [h.1 per hper] at he'
      cases he'
    · rw [hmatched, ← readsNone_iff hread]
      change (if _ = [] then _ else _) = _ ↔ _
      split
      · rename_i hnone
        exact (and_iff_right hnone).symm
      · rename_i hsome
        refine iff_of_false (fun h => hsome (Except.ok.inj h)) fun h => hsome h.1

theorem readMatches_of_blank (h : isBlank P text = true) : readMatches P rows text = .ok [] := by
  rcases readMatches_cases P rows text with
    ⟨e, -, per, -, e', he'⟩ | ⟨hread, hmatched⟩
  · rw [matchesPeriod_of_blank h] at he'
    cases he'
  · rw [hmatched, (readsNone_iff hread).mpr fun per _ => matchesPeriod_of_blank h per]

/-- **Blank texts are not read**. -/
theorem firstRead_withoutBlanks (rest : List String) :
    firstRead P rows (withoutBlanks P texts ++ rest) = firstRead P rows (texts ++ rest) := by
  induction texts with
  | nil => rfl
  | cons text texts ih =>
    rw [List.cons_append, firstRead, ← ih]
    cases hblank : isBlank P text with
    | true =>
      rw [readMatches_of_blank hblank, withoutBlanks, List.filter_cons_of_neg (by simp [hblank])]
      rfl
    | false =>
      rw [withoutBlanks, List.filter_cons_of_pos (by simp [hblank]), List.cons_append, firstRead]
      rfl

/-! ## With a blank -/

theorem exists_beforeBlank (h : ∃ text ∈ texts, isBlank P text = true) :
    ∃ text after, texts = beforeBlank P texts ++ text :: after ∧ isBlank P text = true := by
  have hne : texts.dropWhile (fun text => !isBlank P text) ≠ [] := by
    obtain ⟨text, htext, hblank⟩ := h
    intro hnil
    have := List.dropWhile_eq_nil_iff.mp hnil text htext
    simp [hblank] at this
  obtain ⟨text, after, hdrop⟩ := List.exists_cons_of_ne_nil hne
  have hhead := List.head_dropWhile_not (fun text => !isBlank P text) hne
  simp only [hdrop, List.head_cons, Bool.not_eq_false'] at hhead
  refine ⟨text, after, ?_, hhead⟩
  rw [beforeBlank, ← hdrop, List.takeWhile_append_dropWhile]

theorem withoutBlanks_eq_self (h : ¬ ∃ text ∈ texts, isBlank P text = true) :
    withoutBlanks P texts = texts := by
  rw [withoutBlanks, List.filter_eq_self]
  intro text htext
  cases hblank : isBlank P text with
  | true => exact absurd ⟨text, htext, hblank⟩ h
  | false => rfl

/-- **With a blank**, all institutions that have a name are selected. -/
theorem matchInstitutions_of_blank
    (h : ∃ text ∈ extracted.requestedInstitutions, isBlank P text = true) :
    matchInstitutions P.text extracted prompt tenant.institutions =
      namedBefore (namesInstitution P.text) (hasName P) tenant.institutions
        (beforeBlank P extracted.requestedInstitutions) := by
  obtain ⟨text, after, htexts, hblank⟩ := exists_beforeBlank h
  have hnamed : named (namesInstitution P.text) tenant.institutions
      extracted.requestedInstitutions = namedBefore (namesInstitution P.text) (hasName P)
        tenant.institutions (beforeBlank P extracted.requestedInstitutions) := by
    conv_lhs => rw [htexts]
    exact named_of_all (namesInstitution_of_blank hblank) fun _ _ => hasName_of_namesInstitution
  rw [matchInstitutions_eq, hnamed, orElse]
  split
  · rename_i hnone
    rw [hnone, named_eq_nil_iff]
    intro inst hinst text' _
    cases hprompt : promptNamesInstitution P.text text' inst with
    | false => rfl
    | true =>
      have hmem : inst ∈ namedBefore (namesInstitution P.text) (hasName P) tenant.institutions
          (beforeBlank P extracted.requestedInstitutions) := by
        refine List.mem_eraseDups.mpr (List.mem_append_right _ (List.mem_filter.mpr ⟨hinst, ?_⟩))
        exact hasName_of_promptNamesInstitution hprompt
      rw [hnone] at hmem
      exact absurd hmem List.not_mem_nil
  · rfl

/-- And so are all periods. -/
theorem matchPeriodsOrFail_of_blank
    (h : ∃ text ∈ extracted.requestedPeriods, isBlank P text = true) :
    matchPeriodsOrFail P extracted prompt rows = .ok (namedBefore (namesPeriod P.text)
      (fun _ => true) rows (beforeBlank P extracted.requestedPeriods)) := by
  obtain ⟨text, after, htexts, hblank⟩ := exists_beforeBlank h
  have hnamed : named (namesPeriod P.text) rows extracted.requestedPeriods =
      namedBefore (namesPeriod P.text) (fun _ => true) rows
        (beforeBlank P extracted.requestedPeriods) := by
    conv_lhs => rw [htexts]
    exact named_of_all (namesPeriod_of_blank hblank) fun _ _ _ => rfl
  cases rows with
  | nil =>
    have hnil : namedBefore (namesPeriod P.text) (fun _ => true) []
        (beforeBlank P extracted.requestedPeriods) = [] := by
      rw [← hnamed, named_eq_nil_iff]
      exact fun _ h => absurd h List.not_mem_nil
    rw [matchPeriodsOrFail, containedPeriods_eq, hnamed, hnil]
    have hprompt : named (promptNamesPeriod P.text) [] [prompt] = [] :=
      named_eq_nil_iff.mpr fun _ h => absurd h List.not_mem_nil
    rw [hprompt]
    exact firstRead_eq_nil_iff.mpr fun _ _ _ h => absurd h List.not_mem_nil
  | cons per rows =>
    have hmem : per ∈ namedBefore (namesPeriod P.text) (fun _ => true) (per :: rows)
        (beforeBlank P extracted.requestedPeriods) :=
      List.mem_eraseDups.mpr (List.mem_append_right _ (List.mem_filter.mpr
        ⟨List.mem_cons_self, rfl⟩))
    have hne := List.ne_nil_of_mem hmem
    rw [matchPeriodsOrFail, containedPeriods_eq, hnamed, orElse, if_neg hne, if_neg hne]

/-! ## The periods of a request -/

/-- The periods cannot be read. -/
theorem matchPeriodsOrFail_eq_error_iff :
    (∃ e, matchPeriodsOrFail P extracted prompt tenant.periods = .error e) ↔
      ¬ PeriodContained P prompt tenant extracted.requestedPeriods ∧
        ReadingFails P extracted prompt tenant := by
  rw [matchPeriodsOrFail, ReadingFails, failsIn_iff, ← containedPeriods_eq_nil_iff]
  split
  · rename_i hnone
    exact (and_iff_right hnone).symm
  · rename_i hsome
    exact iff_of_false (fun ⟨e, he⟩ => by cases he) fun h => hsome h.1

/-- No period is selected. -/
theorem matchPeriodsOrFail_eq_nil_iff :
    matchPeriodsOrFail P extracted prompt tenant.periods = .ok [] ↔
      ¬ PeriodContained P prompt tenant extracted.requestedPeriods ∧
        ∀ text ∈ extracted.requestedPeriods ++ [prompt], ∀ per ∈ tenant.periods,
          matchesPeriod P text per = .ok false := by
  rw [matchPeriodsOrFail, ← firstRead_eq_nil_iff, ← containedPeriods_eq_nil_iff]
  split
  · rename_i hnone
    exact (and_iff_right hnone).symm
  · rename_i hsome
    exact iff_of_false (fun h => hsome (Except.ok.inj h)) fun h => hsome h.1

theorem readingFails_cleaned : ReadingFails P (cleaned P extracted) prompt tenant ↔
    ReadingFails P extracted prompt tenant := by
  rw [ReadingFails, ReadingFails, failsIn_iff, failsIn_iff]
  change (∃ e, firstRead P tenant.periods (withoutBlanks P extracted.requestedPeriods ++ [prompt]) =
    .error e) ↔ _
  rw [firstRead_withoutBlanks]

/-- **Without blanks**, the periods that are asked for are selected, if they can be read. -/
theorem matchPeriodsOrFail_cleaned
    (h : PeriodContained P prompt tenant (withoutBlanks P extracted.requestedPeriods) ∨
      ¬ ReadingFails P extracted prompt tenant) :
    matchPeriodsOrFail P (cleaned P extracted) prompt tenant.periods =
      .ok (askedPeriods P extracted prompt tenant) := by
  have hcontained : containedPeriods P (cleaned P extracted) prompt tenant.periods = orElse
      (named (namesPeriod P.text) tenant.periods (withoutBlanks P extracted.requestedPeriods))
      (named (promptNamesPeriod P.text) tenant.periods [prompt]) := containedPeriods_eq
  rw [matchPeriodsOrFail, askedPeriods, orElse_assoc, ← hcontained, orElse]
  split
  · rename_i hnone
    have hfails : ¬ ReadingFails P extracted prompt tenant := by
      refine h.resolve_left fun hnamed => ?_
      exact containedPeriods_eq_nil_iff.mp hnone hnamed
    change firstRead P tenant.periods (withoutBlanks P extracted.requestedPeriods ++ [prompt]) = _
    rw [firstRead_withoutBlanks]
    rcases firstRead_spec P tenant.periods (extracted.requestedPeriods ++ [prompt]) with
      ⟨e, -, hfails'⟩ | ⟨-, hok⟩
    · exact absurd hfails' hfails
    · exact hok
  · rfl

theorem matchPeriodsOrFail_cleaned_isOk
    (h : ∃ periods, matchPeriodsOrFail P (cleaned P extracted) prompt tenant.periods = .ok periods) :
    PeriodContained P prompt tenant (withoutBlanks P extracted.requestedPeriods) ∨
      ¬ ReadingFails P extracted prompt tenant := by
  by_contra hnot
  rw [not_or, not_not] at hnot
  obtain ⟨periods, hok⟩ := h
  obtain ⟨e, he⟩ := matchPeriodsOrFail_eq_error_iff.mpr
    ⟨(hnot.1 : ¬ PeriodContained P prompt tenant (cleaned P extracted).requestedPeriods),
      readingFails_cleaned.mpr hnot.2⟩
  rw [hok] at he
  cases he

theorem not_contained_cleaned (h : ¬ PeriodContained P prompt tenant extracted.requestedPeriods) :
    ¬ PeriodContained P prompt tenant (withoutBlanks P extracted.requestedPeriods) := by
  rintro ⟨per, hper, hprompt | ⟨text, htext, hnames⟩⟩
  · exact h ⟨per, hper, .inl hprompt⟩
  · exact h ⟨per, hper, .inr ⟨text, (mem_withoutBlanks.mp htext).1, hnames⟩⟩

theorem InstitutionNamed.selected (h : InstitutionNamed P extracted prompt tenant) :
    InstitutionSelected P extracted prompt tenant := by
  obtain ⟨inst, hinst, hprompt | ⟨text, htext, hnames⟩⟩ := h
  · exact ⟨inst, hinst, .inl hprompt⟩
  · exact ⟨inst, hinst, .inr ⟨text, (mem_withoutBlanks.mp htext).1, hnames⟩⟩

/-! ## Answers -/

/-- An answer depends on what it says of the rows. -/
theorem outcomeOf_congr {institutions institutions' : List Institution}
    {periods periods' : List ReportingPeriod}
    (hids : institutions.map (·.id) = institutions'.map (·.id))
    (hnames : institutions.map (·.canonicalName) = institutions'.map (·.canonicalName))
    (hpers : periods.map (·.id) = periods'.map (·.id))
    (hkeys : periods.map (·.comparisonKey) = periods'.map (·.comparisonKey)) :
    outcomeOf P extracted prompt tenant institutions periods =
      outcomeOf P extracted prompt tenant institutions' periods' := by
  have hnil : institutions = [] ↔ institutions' = [] := by
    rw [← List.map_eq_nil_iff (f := (·.id)), hids, List.map_eq_nil_iff]
  have hnil' : periods = [] ↔ periods' = [] := by
    rw [← List.map_eq_nil_iff (f := (·.id)), hpers, List.map_eq_nil_iff]
  rw [outcomeOf, outcomeOf, hids, hnames, hpers, hkeys]
  simp only [hnil, hnil']

/-- And it says what they are. -/
theorem eq_of_outcomeOf {institutions institutions' : List Institution}
    {periods periods' : List ReportingPeriod} (hne : institutions ≠ []) (hne' : periods ≠ [])
    (h : outcomeOf P extracted prompt tenant institutions periods =
      outcomeOf P extracted prompt tenant institutions' periods') :
    (institutions' ≠ [] ∧ periods' ≠ []) ∧
      (institutions.map (·.id) = institutions'.map (·.id) ∧
        institutions.map (·.canonicalName) = institutions'.map (·.canonicalName)) ∧
      periods.map (·.id) = periods'.map (·.id) ∧
        periods.map (·.comparisonKey) = periods'.map (·.comparisonKey) := by
  rw [outcomeOf, if_neg hne, if_neg hne', outcomeOf] at h
  split at h
  · cases h
  · split at h
    · cases h
    · rename_i hinsts hpers
      simp only [NormalizationOutcome.mk.injEq, Option.some.injEq, NormalizedRequest.mk.injEq] at h
      exact ⟨⟨hinsts, hpers⟩, ⟨h.2.2.1, h.2.1.2.1⟩, h.2.2.2.1, h.2.1.2.2.1⟩

theorem needsClarification_outcomeOf {institutions : List Institution}
    {periods : List ReportingPeriod} :
    (outcomeOf P extracted prompt tenant institutions periods).needsClarification = true ↔
      institutions = [] ∨ periods = [] := by
  rw [outcomeOf]
  split
  · rename_i h
    exact iff_of_true rfl (.inl h)
  · rename_i h
    split
    · rename_i h'
      exact iff_of_true rfl (.inr h')
    · rename_i h'
      exact iff_of_false (by simp) (not_or.mpr ⟨h, h'⟩)

/-- What is answered is what `normalizeRequest` answers. -/
theorem normalizeOrFail_eq_ok {outcome : NormalizationOutcome}
    (h : normalizeOrFail P extracted prompt tenant = .ok outcome) :
    normalizeRequest P.text (some extracted) prompt tenant = outcome := by
  rw [normalizeOrFail] at h
  rw [normalizeRequest]
  split at h
  · rename_i hprompt
    rw [if_pos hprompt]
    exact Except.ok.inj h
  · rename_i hprompt
    rw [if_neg hprompt]
    obtain ⟨periods, hperiods, houtcome⟩ := exceptBind_eq_ok.mp h
    have hmatched : matchPeriods P.text extracted prompt tenant.periods = periods := by
      rw [matchPeriodsOrFail] at hperiods
      rw [matchPeriods, orElse_assoc, ← containedPeriods, orElse]
      split at hperiods
      · rename_i hnone
        rw [if_pos hnone]
        rcases firstRead_spec P tenant.periods (extracted.requestedPeriods ++ [prompt]) with
          ⟨e, he, -⟩ | ⟨-, hok⟩
        · rw [he] at hperiods
          cases hperiods
        · rw [hok] at hperiods
          obtain rfl := Except.ok.inj hperiods
          exact congrArg firstNonempty (List.map_congr_left fun text _ => addMatches_nil)
      · rename_i hsome
        rw [if_neg hsome]
        exact Except.ok.inj hperiods
    obtain rfl := Except.ok.inj houtcome
    simp only [Option.getD_some, hmatched, outcomeOf]

/-! ## Failing closed -/

theorem normalizeOrFail_of_blank (h : P.text.strip prompt = "") :
    normalizeOrFail P extracted prompt tenant = .ok emptyPrompt := if_pos (.inr h)

/-- The normalizer, for a prompt that is not blank. -/
theorem normalizeOrFail_of_ne (h : P.text.strip prompt ≠ "") :
    normalizeOrFail P extracted prompt tenant =
      (matchPeriodsOrFail P extracted prompt tenant.periods).map (outcomeOf P extracted prompt tenant
        (matchInstitutions P.text extracted prompt tenant.institutions)) := by
  have hprompt : ¬ (prompt = "" ∨ P.text.strip prompt = "") := by
    rintro (rfl | hblank)
    · exact h ((P.strip_eq_empty_iff "").mpr fun c hc => absurd hc List.not_mem_nil)
    · exact h hblank
  rw [normalizeOrFail, if_neg hprompt]
  cases matchPeriodsOrFail P extracted prompt tenant.periods <;> rfl

theorem normalizeOrFail_cleaned (h : P.text.strip prompt ≠ "") :
    normalizeOrFail P (cleaned P extracted) prompt tenant =
      (matchPeriodsOrFail P (cleaned P extracted) prompt tenant.periods).map
        (outcomeOf P extracted prompt tenant (askedInstitutions P extracted prompt tenant)) := by
  rw [normalizeOrFail_of_ne h, matchInstitutions_cleaned]
  rfl

/-- The answer is a question if the periods are read, and one of the two is not there. -/
theorem asksBack_iff (h : P.text.strip prompt ≠ "") :
    AsksBack (normalizeOrFail P extracted prompt tenant) ↔
      ∃ periods, matchPeriodsOrFail P extracted prompt tenant.periods = .ok periods ∧
        (¬ InstitutionSelected P extracted prompt tenant ∨ periods = []) := by
  rw [AsksBack, normalizeOrFail_of_ne h, ← matchInstitutions_eq_nil_iff]
  constructor
  · rintro ⟨outcome, houtcome, hneeds⟩
    obtain ⟨periods, hperiods, rfl⟩ := exceptMap_eq_ok.mp houtcome
    exact ⟨periods, hperiods, needsClarification_outcomeOf.mp hneeds⟩
  · rintro ⟨periods, hperiods, hnone⟩
    exact ⟨_, exceptMap_eq_ok.mpr ⟨periods, hperiods, rfl⟩,
      needsClarification_outcomeOf.mpr hnone⟩

/-- The institutions that are selected and those that are asked for say the same. -/
theorem sameInstitutions_iff :
    ((matchInstitutions P.text extracted prompt tenant.institutions).map (·.id) =
        (askedInstitutions P extracted prompt tenant).map (·.id) ∧
      (matchInstitutions P.text extracted prompt tenant.institutions).map (·.canonicalName) =
        (askedInstitutions P extracted prompt tenant).map (·.canonicalName)) ↔
      HarmlessInstitutions P extracted prompt tenant := by
  by_cases hblank : ∃ text ∈ extracted.requestedInstitutions, isBlank P text = true
  · rw [matchInstitutions_of_blank hblank]
    exact ⟨fun h _ => h, fun h => h hblank⟩
  · refine iff_of_true ?_ fun h => absurd h hblank
    have hsame : cleaned P extracted = { extracted with
        requestedPeriods := withoutBlanks P extracted.requestedPeriods } := by
      rw [cleaned, withoutBlanks_eq_self hblank]
    rw [← matchInstitutions_cleaned, hsame]
    exact ⟨rfl, rfl⟩

/-- And so do the periods, if those of the other texts are read. -/
theorem samePeriods_iff {periods : List ReportingPeriod}
    (hread : PeriodContained P prompt tenant (withoutBlanks P extracted.requestedPeriods) ∨
      ¬ ReadingFails P extracted prompt tenant)
    (h : matchPeriodsOrFail P extracted prompt tenant.periods = .ok periods) :
    (periods.map (·.id) = (askedPeriods P extracted prompt tenant).map (·.id) ∧
      periods.map (·.comparisonKey) =
        (askedPeriods P extracted prompt tenant).map (·.comparisonKey)) ↔
      HarmlessPeriods P extracted prompt tenant := by
  by_cases hblank : ∃ text ∈ extracted.requestedPeriods, isBlank P text = true
  · rw [matchPeriodsOrFail_of_blank hblank] at h
    obtain rfl := Except.ok.inj h
    exact ⟨fun h _ => h, fun h => h hblank⟩
  · refine iff_of_true ?_ fun h => absurd h hblank
    have hasked := matchPeriodsOrFail_cleaned hread
    rw [matchPeriodsOrFail, containedPeriods, cleaned, withoutBlanks_eq_self hblank] at hasked
    obtain rfl := Except.ok.inj (h.symm.trans hasked)
    exact ⟨rfl, rfl⟩

/-- The periods are read if those of the other texts are. -/
theorem exists_periods (hok : PeriodContained P prompt tenant
    (withoutBlanks P extracted.requestedPeriods) ∨ ¬ ReadingFails P extracted prompt tenant) :
    ∃ periods, matchPeriodsOrFail P extracted prompt tenant.periods = .ok periods := by
  cases hread : matchPeriodsOrFail P extracted prompt tenant.periods with
  | ok periods => exact ⟨periods, rfl⟩
  | error e =>
    obtain ⟨hcontained, hfails⟩ := matchPeriodsOrFail_eq_error_iff.mp ⟨e, hread⟩
    exact absurd hok (not_or.mpr ⟨not_contained_cleaned hcontained, not_not.mpr hfails⟩)

/-- A request that fails closed is one of the kinds. -/
theorem closes_of_failsClosed (hprompt : P.text.strip prompt ≠ "")
    (h : FailsClosed P extracted prompt tenant) : Closes P extracted prompt tenant := by
  have hsame := h.blanks
  rw [normalizeOrFail_of_ne hprompt, normalizeOrFail_cleaned hprompt] at hsame
  have hinstitutions := h.institutions
  have hperiods := h.periods
  rw [asksBack_iff hprompt] at hinstitutions hperiods
  cases hread : matchPeriodsOrFail P extracted prompt tenant.periods with
  | error e =>
    -- nothing is answered, so nothing may call for a question
    rw [hread] at hinstitutions hperiods
    have hask : ¬ ∃ periods : List ReportingPeriod, Except.error e = Except.ok periods ∧
        (¬ InstitutionSelected P extracted prompt tenant ∨ periods = []) := by
      rintro ⟨_, h, -⟩
      cases h
    obtain ⟨hcontained, hfails⟩ := matchPeriodsOrFail_eq_error_iff.mp ⟨e, hread⟩
    exact .fails (not_not.mp fun hnot => hask (hinstitutions hnot))
      (not_not.mp fun hnot => hask (hperiods hnot)) hcontained hfails
  | ok periods =>
    rw [hread] at hsame
    obtain ⟨asked, hasked, houtcome⟩ := exceptMap_eq_ok.mp hsame.symm
    have hok := matchPeriodsOrFail_cleaned_isOk ⟨asked, hasked⟩
    rw [matchPeriodsOrFail_cleaned hok] at hasked
    obtain rfl := Except.ok.inj hasked
    by_cases hselected : InstitutionSelected P extracted prompt tenant
    · by_cases hnil : periods = []
      · subst hnil
        obtain ⟨hcontained, hnone⟩ := matchPeriodsOrFail_eq_nil_iff.mp hread
        refine .noPeriod (not_not.mp fun hnot => ?_) hcontained hnone
        -- without an institution, the question would be another one
        rw [outcomeOf, if_pos (askedInstitutions_eq_nil_iff.mpr hnot), outcomeOf,
          if_neg (fun h => matchInstitutions_eq_nil_iff.mp h hselected), if_pos rfl] at houtcome
        simp [noTenantInstitutionFound, noTenantPeriodFound] at houtcome
      · have hne := fun h => matchInstitutions_eq_nil_iff.mp h hselected
        obtain ⟨-, hinsts, hpers⟩ := eq_of_outcomeOf hne hnil houtcome.symm
        have hask : ¬ ∃ periods', Except.ok periods = (Except.ok periods' : Except KeyError _) ∧
            (¬ InstitutionSelected P extracted prompt tenant ∨ periods' = []) := by
          rintro ⟨periods', heq, hnone⟩
          obtain rfl := Except.ok.inj heq
          exact hnone.elim (fun h => h hselected) hnil
        rw [hread] at hinstitutions hperiods
        exact .asked (not_not.mp fun hnot => hask (hinstitutions hnot))
          (not_not.mp fun hnot => hask (hperiods hnot)) hok (sameInstitutions_iff.mp hinsts)
          ((samePeriods_iff hok hread).mp hpers)
    · exact .noInstitution hselected hok

/-- And each kind fails closed. -/
theorem failsClosed_of_closes (hprompt : P.text.strip prompt ≠ "")
    (h : Closes P extracted prompt tenant) : FailsClosed P extracted prompt tenant := by
  cases h with
  | emptyPrompt h => exact absurd h hprompt
  | noInstitution hnot hok =>
    have hnotNamed : ¬ InstitutionNamed P extracted prompt tenant := fun h => hnot h.selected
    obtain ⟨periods, hread⟩ := exists_periods hok
    have hask := (asksBack_iff hprompt).mpr ⟨periods, hread, .inl hnot⟩
    refine ⟨?_, fun _ => hask, fun _ => hask⟩
    rw [normalizeOrFail_of_ne hprompt, normalizeOrFail_cleaned hprompt, hread,
      matchPeriodsOrFail_cleaned hok]
    simp only [Except.map, Except.ok.injEq]
    rw [outcomeOf, if_pos (matchInstitutions_eq_nil_iff.mpr hnot), outcomeOf,
      if_pos (askedInstitutions_eq_nil_iff.mpr hnotNamed)]
  | noPeriod hinst hcontained hnone =>
    have hread := matchPeriodsOrFail_eq_nil_iff.mpr ⟨hcontained, hnone⟩
    have hask := (asksBack_iff hprompt).mpr ⟨[], hread, .inr rfl⟩
    have hread' : matchPeriodsOrFail P (cleaned P extracted) prompt tenant.periods = .ok [] := by
      refine matchPeriodsOrFail_eq_nil_iff.mpr ⟨not_contained_cleaned hcontained, ?_⟩
      intro text htext
      rcases List.mem_append.mp htext with htext | htext
      · exact hnone text (List.mem_append_left _ (mem_withoutBlanks.mp htext).1)
      · exact hnone text (List.mem_append_right _ htext)
    refine ⟨?_, fun _ => hask, fun _ => hask⟩
    rw [normalizeOrFail_of_ne hprompt, normalizeOrFail_cleaned hprompt, hread, hread']
    simp only [Except.map, Except.ok.injEq]
    rw [outcomeOf, if_neg (fun h => matchInstitutions_eq_nil_iff.mp h hinst.selected), if_pos rfl,
      outcomeOf, if_neg (fun h => askedInstitutions_eq_nil_iff.mp h hinst), if_pos rfl]
  | fails hinst hper hcontained hfails =>
    refine ⟨?_, fun h => absurd hinst h, fun h => absurd hper h⟩
    have hread : matchPeriodsOrFail P (cleaned P extracted) prompt tenant.periods =
        matchPeriodsOrFail P extracted prompt tenant.periods := by
      rw [matchPeriodsOrFail, if_pos (containedPeriods_eq_nil_iff.mpr
        (not_contained_cleaned hcontained)), matchPeriodsOrFail,
        if_pos (containedPeriods_eq_nil_iff.mpr hcontained)]
      exact firstRead_withoutBlanks _
    obtain ⟨e, he⟩ := matchPeriodsOrFail_eq_error_iff.mpr ⟨hcontained, hfails⟩
    rw [normalizeOrFail_of_ne hprompt, normalizeOrFail_cleaned hprompt, hread, he]
    rfl
  | asked hinst hper hok hinsts hpers =>
    refine ⟨?_, fun h => absurd hinst h, fun h => absurd hper h⟩
    obtain ⟨periods, hread⟩ := exists_periods hok
    obtain ⟨hids, hnames⟩ := sameInstitutions_iff.mpr hinsts
    obtain ⟨hids', hkeys⟩ := (samePeriods_iff hok hread).mpr hpers
    rw [normalizeOrFail_of_ne hprompt, normalizeOrFail_cleaned hprompt, hread,
      matchPeriodsOrFail_cleaned hok]
    exact congrArg Except.ok (outcomeOf_congr hids hnames hids' hkeys)

/-- **A request fails closed**, and is answered as without its blank texts, exactly if it is of
one of the five kinds. -/
theorem failsClosed_iff (P : PromptReading) (extracted : ExtractedRequestEntities)
    (prompt : String) (tenant : TenantRecords) :
    FailsClosed P extracted prompt tenant ↔ Closes P extracted prompt tenant := by
  by_cases hprompt : P.text.strip prompt = ""
  · have hask : AsksBack (normalizeOrFail P extracted prompt tenant) :=
      ⟨_, normalizeOrFail_of_blank hprompt, rfl⟩
    refine iff_of_true ⟨?_, fun _ => hask, fun _ => hask⟩ (.emptyPrompt hprompt)
    rw [normalizeOrFail_of_blank hprompt, normalizeOrFail_of_blank hprompt]
  · exact ⟨closes_of_failsClosed hprompt, failsClosed_of_closes hprompt⟩

/-! ## A blank -/

theorem strip_eq_nil_iff {U : CharClass} {s : List Char} :
    strip U s = [] ↔ ∀ c ∈ s, U.space c = true := by
  rw [strip, List.reverse_eq_nil_iff, List.dropWhile_eq_nil_iff]
  simp only [List.mem_reverse]
  constructor
  · intro h
    refine List.dropWhile_eq_nil_iff.mp ?_
    by_contra hne
    have hhead := List.head_dropWhile_not U.space hne
    rw [h _ (List.head_mem hne)] at hhead
    cases hhead
  · intro h c hc
    exact h c ((List.dropWhile_sublist _).subset hc)

/-- A reading of texts in Turkish. -/
def turkishReading : PromptReading where
  text :=
    { lower := fun s => String.ofList (s.toList.map Char.toLower)
      upper := fun s => String.ofList (s.toList.map Char.toUpper)
      strip := fun s => String.ofList (strip .turkish s.toList)
      resolveMetricCodes := fun _ _ => []
      textMatchesPeriod := fun s per =>
        match PeriodExpression.textMatchesPeriod .turkish s.toList per with
        | .ok found => found
        | .error _ => false }
  period := .turkish
  lower_empty := rfl
  strip_eq_empty_iff s := by
    refine Iff.trans ?_ (strip_eq_nil_iff (U := .turkish))
    exact ⟨fun h => by simpa using congrArg String.toList h, fun h => congrArg String.ofList h⟩
  textMatchesPeriod_eq s per b h := by simp only [h]

/-- A tenant with two institutions and one period. -/
def twoBanks : TenantRecords where
  institutions :=
    [{ id := 1, canonicalName := "AKBNK", displayName := "Akbank" },
      { id := 2, canonicalName := "VAKBN", displayName := "VakifBank" }]
  periods := [{ id := 3, fiscalYear := 2026, quarter := some 1, label := "2026/Q1",
                comparisonKey := "2026-Q1" }]
  catalog := []

/-- **One blank** among the extracted institutions selects them all, where nobody named one. -/
theorem not_failsClosed : ¬ FailsClosed turkishReading
    { requestedInstitutions := [""], requestedPeriods := ["2026-Q1"] } "2026-Q1 raporu" twoBanks := by
  intro h
  have hblanks := congrArg (fun answer => answer.map (·.matchedInstitutionIds)) h.blanks
  have hwith : (normalizeOrFail turkishReading
      { requestedInstitutions := [""], requestedPeriods := ["2026-Q1"] } "2026-Q1 raporu"
      twoBanks).map (·.matchedInstitutionIds) = .ok [1, 2] := by decide
  have hwithout : (normalizeOrFail turkishReading (cleaned turkishReading
      { requestedInstitutions := [""], requestedPeriods := ["2026-Q1"] }) "2026-Q1 raporu"
      twoBanks).map (·.matchedInstitutionIds) = .ok [] := by decide
  have hsame := hwith.symm.trans (hblanks.trans hwithout)
  cases hsame

end AnalysisRequestNormalizer

end FinanceIntelligence
