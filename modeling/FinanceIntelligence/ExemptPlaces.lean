import FinanceIntelligence.NumberScanner

/-!
# Exempt places and exempt texts

`is_excluded_token` (quality_gate.py) is meant to exempt a number that is *part of an excluded
pattern context*: a year, a quarter, the number of a page, an article or a step. It is handed
the characters of the number and not its place, so it compares them with the first match of
each pattern, wherever that stands.

* `inExcludedMatch` — the place of a number lies **in a match** of an excluded pattern;
  `inFirstMatch` — its characters are a part of the **first match** of one.
* `verify_eq_none_iff` — what the gate asks of a narrative that it passes.
* `exemptsPlaces_iff` — the exemptions apply to places **exactly if** no unsupported number that
  stands elsewhere has characters of a first match, or another number is refused anyway;
* `not_exemptsPlaces_year` — a year **excuses** the pieces of its digits.
-/

namespace FinanceIntelligence

deriving instance DecidableEq for Spot

/-- The places of a text from one of them on. -/
def Spot.followers : List Char → Option Char → List Spot
  | [], prev => [⟨prev, []⟩]
  | c :: cs, prev => ⟨prev, c :: cs⟩ :: followers cs (some c)

namespace NumericClaimVerifier

variable (U : CharClass)

/-- The part of the text from `x` to `y` lies inside a match of an excluded pattern. -/
def inExcludedMatch (text : List Char) (x y : Spot) : Bool :=
  (excludedNonClaimPatterns U).any fun pat => (Spot.followers text none).any fun x' =>
    (pat.ends U x').any fun y' =>
      x.rest.length ≤ x'.rest.length && y'.rest.length ≤ y.rest.length

/-- The characters are a part of the first match of an excluded pattern. -/
def inFirstMatch (token text : List Char) : Bool :=
  (excludedNonClaimPatterns U).any fun pat => (Regex.search U pat text).any (isPartOf token)

/-- What the loop does with a number that is not exempt lets it pass: it is small enough to count
bullet points, it stands in the text of the dataset, or it is derived from the facts. -/
def isSupported (dataset : GateDataset) (token : List Char) : Bool :=
  isTrivial U token || occursIn dataset.text token ||
    isDerived U (computeDeterministicDerivations dataset) token

/-- **The exemptions apply to places** in a narrative. -/
structure ExemptsPlaces (text : List Char) (dataset : GateDataset) : Prop where
  /-- in a narrative that passes, every number outside the excluded matches was checked -/
  checked : verifyNarrativeNumericClaims U text dataset = none →
    ∀ x y, (x, (), y) ∈ tokenSpans U text → isYear U (x.upTo y) = false →
      inExcludedMatch U text x y = false → isSupported U dataset (x.upTo y) = true
  /-- what a narrative was refused for is not excused by what this one has elsewhere -/
  refused : ∀ other token, verifyNarrativeNumericClaims U other dataset = some token →
    ∀ x y, (x, (), y) ∈ tokenSpans U text → x.upTo y = token →
      inExcludedMatch U text x y = false → verifyNarrativeNumericClaims U text dataset ≠ none

variable {U} {text : List Char} {dataset : GateDataset}

theorem isExcludedToken_eq (token : List Char) :
    isExcludedToken U token text = (isYear U token || inFirstMatch U token text) := rfl

/-- The gate passes over a number exactly if it is exempt or supported. -/
theorem passesOver_iff (token : List Char) :
    (isExempt U token text || occursIn dataset.text token ||
        isDerived U (computeDeterministicDerivations dataset) token) = true ↔
      isYear U token = true ∨ inFirstMatch U token text = true ∨
        isSupported U dataset token = true := by
  rw [isExempt, isExcludedToken_eq, isSupported]
  simp only [Bool.or_eq_true, or_assoc]

/-- **What the gate asks** of a narrative that it passes. -/
theorem verify_eq_none_iff :
    verifyNarrativeNumericClaims U text dataset = none ↔
      ∀ x y, (x, (), y) ∈ tokenSpans U text → isYear U (x.upTo y) = true ∨
        inFirstMatch U (x.upTo y) text = true ∨ isSupported U dataset (x.upTo y) = true := by
  rw [verifyNarrativeNumericClaims, extractNumbersFromText_eq, List.find?_eq_none]
  constructor
  · intro h x y hmem
    have hpass := h _ (List.mem_map_of_mem hmem)
    rw [Bool.not_eq_true', Bool.not_eq_false] at hpass
    exact (passesOver_iff _).mp hpass
  · intro h token htoken
    obtain ⟨⟨x, _, y⟩, hmem, rfl⟩ := List.mem_map.mp htoken
    rw [Bool.not_eq_true', Bool.not_eq_false]
    exact (passesOver_iff _).mpr (h x y hmem)

/-- A number that a narrative is refused for is no year and has no support. -/
theorem of_verify_eq_some {token : List Char}
    (h : verifyNarrativeNumericClaims U text dataset = some token) :
    isYear U token = false ∧ isSupported U dataset token = false := by
  have hrefused := List.find?_some h
  rw [Bool.not_eq_true', ← Bool.not_eq_true, passesOver_iff] at hrefused
  simpa using And.intro (fun hyear => hrefused (.inl hyear))
    (fun hsupport => hrefused (.inr (.inr hsupport)))

/-- A number is refused, whatever else stands in the narrative: it is no year, its characters are
in no first match, and it has no support. -/
def HasRefusable (U : CharClass) (text : List Char) (dataset : GateDataset) : Prop :=
  ∃ x y, (x, (), y) ∈ tokenSpans U text ∧ isYear U (x.upTo y) = false ∧
    inFirstMatch U (x.upTo y) text = false ∧ isSupported U dataset (x.upTo y) = false

/-- Every number that stands outside the excluded matches and has characters of a first match is
supported. -/
def SupportsBorrowers (U : CharClass) (text : List Char) (dataset : GateDataset) : Prop :=
  ∀ x y, (x, (), y) ∈ tokenSpans U text → isYear U (x.upTo y) = false →
    inExcludedMatch U text x y = false → inFirstMatch U (x.upTo y) text = true →
      isSupported U dataset (x.upTo y) = true

/-- A number that is refusable refuses the narrative, and only such a number does. -/
theorem hasRefusable_iff :
    HasRefusable U text dataset ↔ verifyNarrativeNumericClaims U text dataset ≠ none := by
  rw [ne_eq, verify_eq_none_iff, HasRefusable]
  push Not
  simp only [ne_eq, Bool.not_eq_true]

/-- **The exemptions apply to places** exactly if every number outside the excluded matches with
characters of a first match is supported, or the narrative has another number that is refused. -/
theorem exemptsPlaces_iff (U : CharClass) (text : List Char) (dataset : GateDataset) :
    ExemptsPlaces U text dataset ↔
      SupportsBorrowers U text dataset ∨ HasRefusable U text dataset := by
  rw [hasRefusable_iff]
  constructor
  · intro h
    by_cases hpass : verifyNarrativeNumericClaims U text dataset = none
    · exact .inl fun x y hmem hyear hplace _ => h.checked hpass x y hmem hyear hplace
    · exact .inr hpass
  · rintro (hsupport | hrefused)
    · have hchecked : verifyNarrativeNumericClaims U text dataset = none → ∀ x y,
          (x, (), y) ∈ tokenSpans U text → isYear U (x.upTo y) = false →
          inExcludedMatch U text x y = false → isSupported U dataset (x.upTo y) = true := by
        intro hpass x y hmem hyear hplace
        rcases verify_eq_none_iff.mp hpass x y hmem with h | h | h
        · rw [hyear] at h
          cases h
        · exact hsupport x y hmem hyear hplace h
        · exact h
      refine ⟨hchecked, fun other token hother x y hmem htoken hplace hpass => ?_⟩
      -- the number has no support in the dataset, in whatever narrative it stands
      obtain ⟨hyear, hnone⟩ := of_verify_eq_some hother
      subst htoken
      rw [hchecked hpass x y hmem hyear hplace] at hnone
      cases hnone
    · exact ⟨fun hpass => absurd hpass hrefused, fun _ _ _ _ _ _ _ _ => hrefused⟩

/-- A dataset without facts. -/
def emptyDataset : GateDataset := { text := "{}" }

/-- **A year excuses** a number with its digits: alone, the number is refused. -/
theorem not_exemptsPlaces_year :
    verifyNarrativeNumericClaims .ascii "Oran 24".toList emptyDataset = some "24".toList ∧
      verifyNarrativeNumericClaims .ascii "2024: Oran 24".toList emptyDataset = none ∧
      ¬ ExemptsPlaces .ascii "2024: Oran 24".toList emptyDataset := by
  have halone : verifyNarrativeNumericClaims .ascii "Oran 24".toList emptyDataset =
      some "24".toList := by decide +kernel
  have hbeside : verifyNarrativeNumericClaims .ascii "2024: Oran 24".toList emptyDataset =
      none := by decide +kernel
  refine ⟨halone, hbeside, fun h => ?_⟩
  have hspans : tokenSpans .ascii "2024: Oran 24".toList =
      [(.start "2024: Oran 24".toList, (), ⟨some '4', ": Oran 24".toList⟩),
        (⟨some ' ', "24".toList⟩, (), ⟨some '4', []⟩)] := by
    decide +kernel
  have hsecond : (⟨some ' ', "24".toList⟩, (), ⟨some '4', []⟩) ∈
      tokenSpans .ascii "2024: Oran 24".toList := by
    rw [hspans]
    exact List.mem_cons_of_mem _ List.mem_cons_self
  exact h.refused _ _ halone _ _ hsecond rfl (by decide +kernel) hbeside

end NumericClaimVerifier

end FinanceIntelligence
