import FinanceIntelligence.Datetime
import FinanceIntelligence.NumberParsing
import Mathlib.Tactic.Tauto

/-!
# What a file name says about a filing

`FactExtractionService.parse_document_context` (fact_extraction_service.py): the reporting basis,
the end of the period and the institution, read from a name such as
`Solo_VAKBN_31.03.2026__TR.pdf`. `NormalizationService.detect_reporting_basis`
(normalization_service.py) reads the basis of a running text.
-/

namespace FinanceIntelligence

/-- A reporting basis that is read from a text. -/
inductive DetectedBasis where
  | solo
  | consolidated
  | unknown
deriving DecidableEq

/-- The text of a basis. -/
def DetectedBasis.text : DetectedBasis → String
  | solo => "SOLO"
  | consolidated => "CONSOLIDATED"
  | unknown => "UNKNOWN"

/-- `needle in text`. -/
def contains (text : List Char) (needle : String) : Bool := decide (needle.toList <:+: text)

namespace NormalizationService

/-- `detect_reporting_basis`. -/
def detectReportingBasis (T : TextCase) (rawText : List Char) : DetectedBasis :=
  let lower := T.lower rawText
  if rawText = [] then .unknown
  else if contains lower "konsolide olmayan" || contains lower "solo" ||
      contains lower "unconsolidated" then .solo
  else if contains lower "konsolide" || contains lower "consolidated" then .consolidated
  else .unknown

end NormalizationService

/-- `DocumentContext`. -/
structure DocumentContext where
  institutionCode : Option (List Char)
  periodEnd : Option PyDate
  reportingBasis : DetectedBasis

namespace FactExtractionService

variable (U : CharClass) (T : TextCase)

/-! ## Dates in a name -/

/-- A point, an underscore, a minus or a slash. -/
def isDateSeparator (c : Char) : Bool := c ∈ ['.', '_', '-', '/']

/-- A digit of any script. -/
def isDigit (c : Char) : Bool := (U.digit c).isSome

/-- The characters of `_DMY_DATE`. -/
def dmyDate : List (Char → Bool) :=
  let d := isDigit U
  [d, d, isDateSeparator, d, d, isDateSeparator, d, d, d, d]

/-- The characters of `_YMD_DATE`. -/
def ymdDate : List (Char → Bool) :=
  let d := isDigit U
  [d, d, d, d, isDateSeparator, d, d, isDateSeparator, d, d]

/-- A date at a place in a text, with no digit before it and none after it. -/
def dateAt (pattern : List (Char → Bool)) (x : Spot) : Option (List Char) :=
  let found := x.rest.take pattern.length
  if found.length = pattern.length ∧ (List.zipWith (· ·) pattern found).all id ∧
      ¬ x.prev.any (isDigit U) ∧ ¬ (x.rest.drop pattern.length).head?.any (isDigit U) then
    some found
  else none

/-- `search` of a date. -/
def searchDate (pattern : List (Char → Bool)) : Option Char → List Char → Option (List Char)
  | _, [] => none
  | prev, c :: cs =>
    match dateAt U pattern ⟨prev, c :: cs⟩ with
    | some found => some found
    | none => searchDate pattern (some c) cs

/-- `sub(" ", …)` of the dates; the number counts the characters that belong to the last one. -/
def subDates (pattern : List (Char → Bool)) : ℕ → Option Char → List Char → List Char
  | _, _, [] => []
  | skip + 1, _, c :: cs => subDates pattern skip (some c) cs
  | 0, prev, c :: cs =>
    match dateAt U pattern ⟨prev, c :: cs⟩ with
    | some found => ' ' :: subDates pattern (found.length - 1) (some c) cs
    | none => c :: subDates pattern 0 (some c) cs

/-- `int(…)` of a group of digits. -/
def groupInt (s : List Char) : ℕ := ofDigitList (takeDigits U s).1

/-- The end of the period; a date that does not exist is no date, and a day that comes first goes
before a year that comes first. -/
def periodEndOf (stem : List Char) : Option PyDate :=
  match searchDate U (dmyDate U) none stem with
  | some s =>
    PyDate.of? (groupInt U (s.drop 6)) (groupInt U ((s.drop 3).take 2)) (groupInt U (s.take 2))
  | none =>
    match searchDate U (ymdDate U) none stem with
    | some s =>
      PyDate.of? (groupInt U (s.take 4)) (groupInt U ((s.drop 5).take 2)) (groupInt U (s.drop 8))
    | none => none

/-! ## The institution -/

/-- `[0-9A-Za-zÇĞİÖŞÜçğıöşü]`. -/
def isTokenChar (c : Char) : Bool := c.isAlphanum || c ∈ "ÇĞİÖŞÜçğıöşü".toList

/-- `_CONTEXT_TOKENS`. -/
def contextTokens : List (List Char) :=
  ["solo", "konsolide", "consolidated", "unconsolidated", "tr", "en", "pdf", "xlsx", "csv",
    "finansal", "rapor", "report", "bilanco", "bilanço"].map String.toList

/-- The first of the longest texts. -/
def longest : List (List Char) → Option (List Char)
  | [] => none
  | t :: ts =>
    match longest ts with
    | none => some t
    | some u => some (if t.length < u.length then u else t)

/-- The longest token of a name that says something about the institution. -/
def institutionCodeOf (stem : List Char) : Option (List Char) :=
  let cleaned := subDates U (ymdDate U) 0 none (subDates U (dmyDate U) 0 none stem)
  let tokens := (cleaned.splitOnP fun c => !isTokenChar c).filter (· ≠ [])
  (longest (tokens.filter fun t => T.lower t ∉ contextTokens && !t.all Char.isDigit)).map T.upper

/-! ## The reporting basis -/

/-- `display_name.rsplit(".", 1)[0]`. -/
def stemOf (displayName : List Char) : List Char :=
  if '.' ∈ displayName then displayName.take (rfind '.' displayName) else displayName

/-- `_SOLO_HINTS`. -/
def soloHints : List String := ["solo", "unconsolidated", "banka"]

/-- `_CONSOLIDATED_HINTS`. -/
def consolidatedHints : List String := ["konsolide", "consolidated", "konsol"]

/-- The basis of a name. -/
def basisOf (lowered : List Char) : DetectedBasis :=
  if consolidatedHints.any (contains lowered) then .consolidated
  else if soloHints.any (contains lowered) then .solo
  else .unknown

/-- `parse_document_context`. -/
def parseDocumentContext (displayName : List Char) : DocumentContext :=
  let stem := stemOf displayName
  { institutionCode := institutionCodeOf U T stem
    periodEnd := periodEndOf U stem
    reportingBasis := basisOf (T.lower stem) }

/-! ## Two readings of the basis -/

/-- A separator of words in a name. -/
def separatorAsBlank (c : Char) : Char := if c = '_' ∨ c = '-' then ' ' else c

/-- The separators `_` and `-` read as blanks. -/
def asBlanks (s : List Char) : List Char := s.map separatorAsBlank

/-- `str.lower` does not depend on which separator stands between words. -/
structure KeepsSeparators (T : TextCase) : Prop where
  /-- nothing is nothing in lower case -/
  lower_nil : T.lower [] = []
  /-- separators have no case, nor do the letters around them depend on them -/
  lower_asBlanks : ∀ s, T.lower (asBlanks s) = asBlanks (T.lower s)

/-- A text without separators occurs wherever it occurs with the separators read as blanks. -/
theorem infix_asBlanks_iff {w s : List Char} (hw : ' ' ∉ w ∧ '_' ∉ w ∧ '-' ∉ w) :
    w <:+: asBlanks s ↔ w <:+: s := by
  constructor
  · rintro ⟨a, b, h⟩
    obtain ⟨aw, b', rfl, haw, -⟩ := List.map_eq_append_iff.mp h.symm
    obtain ⟨a', w', rfl, -, hw'⟩ := List.map_eq_append_iff.mp haw
    refine ⟨a', b', ?_⟩
    -- no character of the piece was a separator
    have hsame : w'.map separatorAsBlank = w'.map id := by
      refine List.map_congr_left fun c hc => ?_
      have hmem : separatorAsBlank c ∈ w'.map separatorAsBlank := List.mem_map_of_mem hc
      rw [hw', separatorAsBlank] at hmem
      rw [separatorAsBlank]
      split at hmem
      · exact absurd hmem hw.1
      · rw [if_neg ‹_›]
        rfl
    rw [← hw', hsame, List.map_id]
  · intro h
    have hmap : w.map separatorAsBlank = w.map id := by
      refine List.map_congr_left fun c hc => if_neg ?_
      rintro (rfl | rfl)
      · exact hw.2.1 hc
      · exact hw.2.2 hc
    rw [← List.map_id w, ← hmap]
    exact h.map _

theorem contains_asBlanks {s : List Char} {needle : String}
    (h : ' ' ∉ needle.toList ∧ '_' ∉ needle.toList ∧ '-' ∉ needle.toList) :
    contains (asBlanks s) needle = contains s needle := by
  simp only [contains, infix_asBlanks_iff h]

/-- A text that contains a piece contains every part of it. -/
theorem contains_mono {s : List Char} {w v : String} (hwv : w.toList <:+: v.toList)
    (h : contains s v = true) : contains s w = true :=
  decide_eq_true (hwv.trans (of_decide_eq_true h))

/-- A name in lower case that says `SOLO` in words that also say the opposite: a negation, or words
for both. -/
def saysBoth (lowered : List Char) : Bool :=
  contains lowered "unconsolidated" || contains (asBlanks lowered) "konsolide olmayan" ||
    contains lowered "solo" && (contains lowered "konsol" || contains lowered "consolidated")

/-- The basis of a name is the one that is detected in it, if one is. -/
def BasisAgrees (U : CharClass) (T : TextCase) (displayName : List Char) : Prop :=
  let detected := NormalizationService.detectReportingBasis T (asBlanks (stemOf displayName))
  detected ≠ .unknown → (parseDocumentContext U T displayName).reportingBasis = detected

/-- Both readings, by the words that a text contains. -/
theorem basis_words : ∀ unconsolidated consolidated solo konsol konsolide banka olmayan : Bool,
    (unconsolidated → consolidated) → (konsolide → konsol) → (olmayan → konsolide) →
    (((if olmayan || solo || unconsolidated then DetectedBasis.solo
        else if konsolide || consolidated then .consolidated else .unknown) ≠ .unknown →
      (if konsolide || (consolidated || konsol) then DetectedBasis.consolidated
        else if solo || (unconsolidated || banka) then .solo else .unknown) =
      (if olmayan || solo || unconsolidated then DetectedBasis.solo
        else if konsolide || consolidated then .consolidated else .unknown)) ↔
    (unconsolidated || olmayan || solo && (konsol || consolidated)) = false) := by
  decide

variable {U T} {displayName : List Char}

/-- **Where the two readings agree**: everywhere but in the names that say both. In such a name the
one looks for a hint of consolidation first, and the other for one against it. -/
theorem basis_agrees_iff (hT : KeepsSeparators T) :
    BasisAgrees U T displayName ↔ saysBoth (T.lower (stemOf displayName)) = false := by
  simp only [BasisAgrees, parseDocumentContext, NormalizationService.detectReportingBasis,
    hT.lower_asBlanks]
  by_cases hnil : stemOf displayName = []
  · rw [hnil, hT.lower_nil]
    exact iff_of_true (fun h => absurd rfl h) (by decide)
  · have hne : asBlanks (stemOf displayName) ≠ [] := by simpa [asBlanks] using hnil
    generalize T.lower (stemOf displayName) = s
    have hsolo : contains (asBlanks s) "solo" = contains s "solo" := contains_asBlanks (by decide)
    have hun : contains (asBlanks s) "unconsolidated" = contains s "unconsolidated" :=
      contains_asBlanks (by decide)
    have hkonsolide : contains (asBlanks s) "konsolide" = contains s "konsolide" :=
      contains_asBlanks (by decide)
    have hcons : contains (asBlanks s) "consolidated" = contains s "consolidated" :=
      contains_asBlanks (by decide)
    simp only [if_neg hne, hsolo, hun, hkonsolide, hcons, basisOf, consolidatedHints, soloHints,
      List.any_cons, List.any_nil, Bool.or_false, saysBoth]
    refine basis_words _ _ _ _ _ _ _ (contains_mono (by decide))
      (contains_mono (by decide)) fun h => ?_
    rw [← hkonsolide]
    exact contains_mono (by decide) h

theorem toLower_separatorAsBlank (c : Char) :
    (separatorAsBlank c).toLower = separatorAsBlank c.toLower := by
  by_cases hsep : c = '_' ∨ c = '-'
  · rcases hsep with rfl | rfl <;> rfl
  · -- the lower case of another character is no separator
    have hlower : ¬ (c.toLower = '_' ∨ c.toLower = '-') := by
      rcases toLower_cases c with ⟨hge, hle, hlower⟩ | ⟨-, hsame⟩
      · rintro (h | h)
        · have hval : c.toLower.toNat = 95 := congrArg Char.toNat h
          omega
        · have hval : c.toLower.toNat = 45 := congrArg Char.toNat h
          omega
      · rwa [hsame]
    rw [separatorAsBlank, if_neg hsep, separatorAsBlank, if_neg hlower]

theorem keepsSeparators_ascii : KeepsSeparators .ascii where
  lower_nil := rfl
  lower_asBlanks s := by
    simp only [TextCase.ascii, asBlanks, List.map_map]
    exact List.map_congr_left fun c _ => toLower_separatorAsBlank c

/-- A name that says `SOLO` and nothing else. -/
theorem basis_agrees_vakbn :
    BasisAgrees .ascii .ascii "Solo_VAKBN_31.03.2026__TR.pdf".toList :=
  (basis_agrees_iff keepsSeparators_ascii).mpr (by decide)

/-- A negation contains the word that it negates. -/
theorem basis_disagrees : ¬ ∀ (U : CharClass) (T : TextCase) (displayName : List Char),
    KeepsSeparators T → BasisAgrees U T displayName := by
  intro h
  have hagrees := h .ascii .ascii "Unconsolidated_VAKBN_31.03.2026.pdf".toList
    keepsSeparators_ascii (by decide)
  exact absurd hagrees (by decide)

end FactExtractionService

end FinanceIntelligence
