import FinanceIntelligence.Regex
import FinanceIntelligence.Binary64

/-!
# The numeric claim gate

`NumericClaimVerifier` and `QualityGateEngine`: every number of a narrative has
to occur in the text of the authoritative dataset or to be derived from its
facts.

Numbers are doubles: exact rationals that `Binary64` rounds. A dataset carries
its Python text (`str(dict)`), since the gate searches that text.
-/

namespace FinanceIntelligence

/-- A fact of an authoritative dataset, as the gate reads it. -/
structure GateFact where
  /-- `organization_id`, when it is not empty -/
  organizationId : Option String
  /-- `float(str(value))`; `none` when that fails -/
  value : Option ℚ
  currency : String := "TRY"
  unit : String := "CURRENCY"
  reportingBasis : String := "SOLO"
  metric : Option String := none

/-- An authoritative dataset. -/
structure GateDataset where
  /-- `organization_id`, when it is not empty -/
  organizationId : Option String := none
  facts : List GateFact := []
  /-- whether it has one of the keys `rows`, `result_dataset_id`, `facts` -/
  structured : Bool := true
  /-- its Python text -/
  text : String

/-- A recorded gate outcome. -/
structure GateResult where
  gateCode : String
  status : String
  reasonCode : String
deriving DecidableEq

/-- `part in whole`. -/
def isPartOf (part : List Char) : List Char → Bool
  | [] => part.isEmpty
  | c :: cs => part.isPrefixOf (c :: cs) || isPartOf part cs

theorem isPartOf_iff {part whole : List Char} : isPartOf part whole = true ↔ part <:+: whole := by
  induction whole with
  | nil => simp [isPartOf]
  | cons c cs ih => simp [isPartOf, ih, List.infix_cons_iff]

namespace NumericClaimVerifier

variable (U : CharClass)

/-! ## Scanning -/

/-- `\d`. -/
def digit : Regex := .one fun c => (U.digit c).isSome

/-- A letter, in every case that `re.IGNORECASE` takes for it. -/
def letter (c : Char) : Char → Bool := fun x =>
  match c with
  | 's' => x == 's' || x == 'S' || x == 'ſ'
  | 'ı' => x == 'ı' || x == 'i' || x == 'I' || x == 'İ'
  | 'ç' => x == 'ç' || x == 'Ç'
  | c => x == c || x == c.toUpper

/-- `\bword\s+\d+\b`. -/
def labelled (label : String) : Regex :=
  .seq .bound (Regex.chars (label.toList.map letter)
    (.seq (.plus (.one U.space)) (.seq (.plus (digit U)) .bound)))

/-- Text that is not verified as a financial claim. -/
def excludedNonClaimPatterns : List Regex :=
  [ -- calendar years
    .seq .bound (.seq (.one (· == '2')) (.seq (.one (· == '0'))
      (.seq (digit U) (.seq (digit U) .bound)))),
    -- quarters
    .seq .bound (.seq (.one fun c => '1' ≤ c && c ≤ '4')
      (.seq (.one fun c => letter 'ç' c || letter 'q' c) .bound)),
    -- page, article and step numbers
    labelled U "sayfa", labelled U "madde", labelled U "adım"]

/-- `^20\d{2}$`. -/
def isYear : List Char → Bool
  | ['2', '0', a, b] => (U.digit a).isSome && (U.digit b).isSome
  | _ => false

/-- The token is exempt from verification. -/
def isExcludedToken (token narrative : List Char) : Bool :=
  isYear U token || (excludedNonClaimPatterns U).any fun pat =>
    (Regex.search U pat narrative).any (isPartOf token)

/-- `\b\d+(?:[.,]\d+)*(?:[.,]\d+)?%?\b`. -/
def numberPattern : Regex :=
  let group : Regex := .seq (.one fun c => c == '.' || c == ',') (.plus (digit U))
  .seq .bound (.seq (.plus (digit U)) (.seq (.star group) (.seq (.opt group)
    (.seq (.opt (.one (· == '%'))) .bound))))

/-- The numbers of a text. -/
def extractNumbersFromText (text : List Char) : List (List Char) :=
  Regex.findAll U (numberPattern U) text

/-! ## Reading a number -/

/-- The value of a run of digits. -/
def digitsValue (l : List Char) : Option ℕ :=
  l.foldlM (fun n c => (U.digit c).map (10 * n + ·)) 0

/-- `float` of digits with at most one point. -/
def parseFloat (l : List Char) : Option ℚ :=
  match l.splitOn '.' with
  | [whole] => if whole.isEmpty then none else (digitsValue U whole).map fun n => Binary64.round n
  | [whole, places] =>
    if whole.isEmpty && places.isEmpty then none else
      (digitsValue U (whole ++ places)).map fun n => Binary64.round (n / 10 ^ places.length)
  | _ => none

/-- `s.rfind(c)`, counted from one; zero when it does not occur. -/
def lastIndex (c : Char) (l : List Char) : ℕ := l.length - (l.reverse.takeWhile (· != c)).length

/-- Thousands separators removed and the decimal separator a point. -/
def cleanToken (token : List Char) : List Char :=
  let clean := token.filter (· != '%')
  if '.' ∈ clean ∧ ',' ∈ clean then
    if lastIndex '.' clean < lastIndex ',' clean then
      (clean.filter (· != '.')).map fun c => if c = ',' then '.' else c
    else clean.filter (· != ',')
  else if ',' ∈ clean then
    match clean.splitOn ',' with
    | [_, places] =>
      if places.length ≤ 4 then clean.map fun c => if c = ',' then '.' else c
      else clean.filter (· != ',')
    | _ => clean.filter (· != ',')
  else
    match clean.splitOn '.' with
    | [whole, places] =>
      if places.length = 3 ∧ whole.length ≤ 3 then clean.filter (· != '.') else clean
    | [_] => clean
    | _ => clean.filter (· != '.')

/-- The value of a token, with either separator for thousands or decimals. -/
def normalizeFinancialToken (token : List Char) : Option ℚ := parseFloat U (cleanToken token)

/-! ## Derivations -/

/-- Allowed texts and allowed doubles. -/
structure Derivations where
  /-- `derived_tokens` -/
  tokens : List String := []
  /-- `derived_floats` -/
  floats : List ℚ := []

namespace Derivations

/-- Union. -/
def append (a b : Derivations) : Derivations := ⟨a.tokens ++ b.tokens, a.floats ++ b.floats⟩

/-- Union of a list. -/
def join (l : List Derivations) : Derivations := l.foldr append {}

end Derivations

/-- `text.replace(".", ",")`. -/
def commaText (s : String) : String := String.ofList (s.toList.map fun c => if c = '.' then ',' else c)

/-- The representations in which a double may be written. -/
def numberRepresentations (val : ℚ) : Derivations :=
  let absVal := |val|
  let scaled := [(1 : ℚ), 1000, 1000000, 1000000000, 1000000000000].flatMap fun factor =>
    [Binary64.div absVal factor, Binary64.mul absVal factor]
  let intVal := (Binary64.nearest absVal).toNat
  let divisors := [(1000000000000 : ℚ), 1000000000, 1000000].filter fun divisor =>
    divisor ≤ absVal && Binary64.mod absVal divisor < 1
  { floats :=
      (scaled.flatMap fun x =>
        [Binary64.roundPlaces x 2, Binary64.roundPlaces x 4, Binary64.roundPlaces x 1]) ++
      divisors.map fun divisor => Binary64.roundPlaces (Binary64.div absVal divisor) 2
    tokens :=
      [toString intVal, Decimal.dotted intVal,
        Decimal.fixed absVal 2, commaText (Decimal.fixed absVal 2),
        Decimal.fixed absVal 1, commaText (Decimal.fixed absVal 1)] ++
      divisors.flatMap fun divisor =>
        let n := (Binary64.floorDiv absVal divisor).floor.toNat
        [toString n, Decimal.dotted n] }

/-- The fact belongs to the organization of the dataset. -/
def sameTenant (org : Option String) (f : GateFact) : Bool :=
  match org with
  | none => true
  | some o => f.organizationId.getD o == o

/-- What two facts allow: sum, difference, ratio, percentage change and share. -/
def pairDerivations (f₁ f₂ : GateFact) (v₁ v₂ : ℚ) : Derivations :=
  let sameContext := f₁.currency == f₂.currency && f₁.unit == f₂.unit &&
    f₁.reportingBasis == f₂.reportingBasis
  let sameMetric := sameContext && f₁.metric == f₂.metric
  let ratio := Binary64.div v₁ v₂
  let change := Binary64.mul (Binary64.div (Binary64.sub v₁ v₂) |v₂|) 100
  let total := Binary64.add v₁ v₂
  Derivations.join <|
    (if sameMetric then [numberRepresentations total] else []) ++
    (if sameContext then [numberRepresentations |Binary64.sub v₁ v₂|] else []) ++
    (if v₂ ≠ 0 then
      [numberRepresentations ratio, numberRepresentations (Binary64.mul ratio 100)] else []) ++
    (if sameContext ∧ v₂ ≠ 0 then
      [numberRepresentations change, numberRepresentations |change|] else []) ++
    (if sameMetric ∧ total ≠ 0 then
      [numberRepresentations (Binary64.mul (Binary64.div v₁ total) 100)] else [])

/-- All allowed derivations of the facts of a dataset. -/
def computeDeterministicDerivations (dataset : GateDataset) : Derivations :=
  let facts := dataset.facts.zipIdx
  let single := dataset.facts.filterMap fun f =>
    if sameTenant dataset.organizationId f then f.value.map numberRepresentations else none
  let pairs := facts.flatMap fun (f₁, i) => facts.filterMap fun (f₂, j) =>
    if i ≠ j ∧ sameTenant dataset.organizationId f₁ ∧ sameTenant dataset.organizationId f₂ then
      match f₁.value, f₂.value with
      | some v₁, some v₂ => some (pairDerivations f₁ f₂ v₁ v₂)
      | _, _ => none
    else none
  Derivations.join (single ++ pairs)

/-! ## Verification -/

/-- The value is small enough to count bullet points or steps. -/
def isTrivial (token : List Char) : Bool := (normalizeFinancialToken U token).any (· ≤ 10)

/-- The token needs no support. -/
def isExempt (token narrative : List Char) : Bool :=
  isExcludedToken U token narrative || isTrivial U token

/-- The token is one of the derivations. -/
def isDerived (derived : Derivations) (token : List Char) : Bool :=
  let cleanNum := token.filter fun c => c != ',' && c != '%'
  derived.tokens.any (fun t => t.toList == cleanNum || t.toList == token) ||
    (normalizeFinancialToken U token).any fun v =>
      [Binary64.roundPlaces v 2, Binary64.roundPlaces v 1, Binary64.roundPlaces v 4].any
        (· ∈ derived.floats)

/-- The token occurs in the text of the dataset. -/
def occursIn (text : String) (token : List Char) : Bool :=
  isPartOf (token.filter fun c => c != ',' && c != '%') text.toList || isPartOf token text.toList

/-- The first unsupported number of the narrative, if there is one. -/
def verifyNarrativeNumericClaims (narrative : List Char) (dataset : GateDataset) :
    Option (List Char) :=
  let derived := computeDeterministicDerivations dataset
  (extractNumbersFromText U narrative).find? fun token =>
    !(isExempt U token narrative || occursIn dataset.text token || isDerived U derived token)

end NumericClaimVerifier

namespace QualityGateEngine

/-- The gates before a snapshot is completed; an unsupported claim is an
exception with this message. -/
def runAllGates (U : CharClass) (narrative : String) (dataset : GateDataset) :
    Except String (List GateResult) :=
  match NumericClaimVerifier.verifyNarrativeNumericClaims U narrative.toList dataset with
  | some token =>
    .error ("Numeric claim '" ++ String.ofList token ++
      "' in narrative was not found in authoritative dataset or verified derived calculations.")
  | none =>
    .ok ([⟨"NUMERIC_CLAIM_GATE", "PASS", "ALL_NUMBERS_VERIFIED"⟩] ++
      if dataset.structured then
        [⟨"TABLE_CHART_EQUALITY_GATE", "PASS", "DATASET_STRUCTURED_OK"⟩] else [])

end QualityGateEngine

end FinanceIntelligence
