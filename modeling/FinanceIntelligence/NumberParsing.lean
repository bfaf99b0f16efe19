import FinanceIntelligence.DecimalArithmetic
import FinanceIntelligence.Regex
import Mathlib.Data.List.Infix

/-!
# Reading printed figures

`NormalizationService` (normalization_service.py): the reading of a figure as a
filing prints it, with Turkish or English separators, parentheses for negative
numbers and percent signs, and the scaling of the number by the scale of its table.

Letter case and the classes of characters depend on the Unicode database; they are
parameters.
-/

namespace FinanceIntelligence

/-- Letter case of texts. -/
structure TextCase where
  /-- `str.lower` -/
  lower : List Char → List Char
  /-- `str.upper` -/
  upper : List Char → List Char

/-- Letter case of ASCII texts. -/
def TextCase.ascii : TextCase := ⟨List.map Char.toLower, List.map Char.toUpper⟩

/-- `str.strip`. -/
def strip (U : CharClass) (s : List Char) : List Char :=
  ((s.dropWhile U.space).reverse.dropWhile U.space).reverse

/-- `str.rfind` of one character that occurs. -/
def rfind (c : Char) (s : List Char) : ℕ := s.length - 1 - s.reverse.idxOf c

/-- `str.replace` of one character by nothing. -/
def removeChar (c : Char) (s : List Char) : List Char := s.filter (· != c)

/-- `str.replace` of one character by another. -/
def replaceChar (c d : Char) (s : List Char) : List Char := s.map fun x => if x = c then d else x

/-! ## `Decimal(…)` -/

section DecimalText

variable (U : CharClass)

/-- The digits at the front of a text. -/
def takeDigits : List Char → List ℕ × List Char
  | [] => ([], [])
  | c :: cs =>
    match U.digit c with
    | some n => ((n :: (takeDigits cs).1), (takeDigits cs).2)
    | none => ([], c :: cs)

/-- The number that digits write. -/
def ofDigitList (l : List ℕ) : ℕ := l.foldl (fun n d => 10 * n + d) 0

/-- An optional sign at the front of a text; `true` for a minus. -/
def takeSign : List Char → Bool × List Char
  | '-' :: cs => (true, cs)
  | '+' :: cs => (false, cs)
  | cs => (false, cs)

/-- What follows the digits: nothing, or an exponent. -/
def exponentOf : List Char → Option ℤ
  | [] => some 0
  | c :: cs =>
    if c = 'e' ∨ c = 'E' then
      match takeDigits U (takeSign cs).2 with
      | (d :: ds, []) =>
        let n : ℤ := ofDigitList (d :: ds)
        some (if (takeSign cs).1 then -n else n)
      | _ => none
    else none

/-- The largest exponent of any decimal. -/
def maxEmax : ℤ := 999999999999999999

/-- A number without its sign: digits, a point, digits, an exponent. -/
def numberOf (s : List Char) : Option ℚ :=
  let whole := takeDigits U s
  let fraction :=
    match whole.2 with
    | '.' :: cs => takeDigits U cs
    | cs => ([], cs)
  if whole.1 ++ fraction.1 = [] then none else
    (exponentOf U fraction.2).bind fun e =>
      let n := ofDigitList (whole.1 ++ fraction.1)
      let e := e - fraction.1.length
      -- a number out of the range of every context is no valid text
      if n ≠ 0 ∧ (maxEmax < e + Nat.log 10 n ∨ e < -2 * maxEmax + 1) then none
      else some (n * (10 : ℚ) ^ e)

/-- A special value without its sign. -/
def specialOf (negative : Bool) (s : List Char) : Option PyDecimal :=
  let s := s.map Char.toLower
  if s = "inf".toList ∨ s = "infinity".toList then some (.infinite negative)
  else if s.take 3 = "nan".toList ∧ (takeDigits U (s.drop 3)).2 = [] then some (.nan false)
  else if s.take 4 = "snan".toList ∧ (takeDigits U (s.drop 4)).2 = [] then some (.nan true)
  else none

/-- `Decimal(s)`; `none` for `InvalidOperation`. -/
def decimalOfText (s : List Char) : Option PyDecimal :=
  let (negative, s) := takeSign ((strip U s).filter (· != '_'))
  match numberOf U s with
  | some q => some (.finite (if negative then -q else q))
  | none => specialOf U negative s

end DecimalText

/-! ## `NormalizationService` -/

/-- `SCALE_FACTORS`, whose keys are `VALID_SCALES`. -/
def scaleFactors : List (List Char × ℕ) :=
  [("ONE".toList, 1), ("THOUSAND".toList, 1000), ("MILLION".toList, 1000000),
    ("BILLION".toList, 1000000000)]

/-- `NumberParseResult`. -/
structure NumberParseResult where
  /-- the number -/
  value : Option PyDecimal
  /-- it is printed as a percentage -/
  isPercentage : Bool
  /-- what a reviewer should know -/
  warningCodes : List String
  deriving DecidableEq

namespace NormalizationService

variable (U : CharClass) (T : TextCase)

/-- `\d+e[+-]?\d+`. -/
def exponentPattern : Regex :=
  let digits := Regex.plus (.one fun c => (U.digit c).isSome)
  .seq digits (.seq (.one (· == 'e')) (.seq (.opt (.one fun c => c == '+' || c == '-')) digits))

/-- The texts that stand for no figure. -/
def nullIndicators : List (List Char) :=
  ["—", "-", "N/A", "n/a", "null", "NULL", "None", ""].map String.toList

/-- One letter of `yüzde`, in either case. -/
def isYuzde (a b c d e : Char) : Bool :=
  (a == 'y' || a == 'Y') && (b == 'ü' || b == 'Ü') && (c == 'z' || c == 'Z') &&
    (d == 'd' || d == 'D') && (e == 'e' || e == 'E')

/-- `re.sub(r"(?i)yüzde", "", s)`. -/
def removeYuzde : List Char → List Char
  | a :: b :: c :: d :: e :: rest =>
    if isYuzde a b c d e then removeYuzde rest else a :: removeYuzde (b :: c :: d :: e :: rest)
  | s => s

/-- The separators of a figure, as `Decimal` wants them, and the warnings. -/
def separators (s : List Char) (localeHint : Option String) : List Char × List String :=
  if '.' ∈ s ∧ ',' ∈ s then
    if rfind ',' s < rfind '.' s then (removeChar ',' s, [])
    else (replaceChar ',' '.' (removeChar '.' s), [])
  else if ',' ∈ s then
    let parts := s.splitOn ','
    if parts.length = 2 ∧ (parts.getD 1 []).length ∈ [1, 2] then (replaceChar ',' '.' s, [])
    else if 2 < parts.length then (removeChar ',' s, [])
    else if localeHint = some "tr_TR" ∨ localeHint = some "TR" then (removeChar ',' s, [])
    else (removeChar ',' s, ["AMBIGUOUS_NUMBER_FORMAT"])
  else if '.' ∈ s then
    let parts := s.splitOn '.'
    if parts.length = 2 ∧ (parts.getD 1 []).length ∈ [1, 2] then (s, [])
    else if 2 < parts.length then (removeChar '.' s, [])
    else if localeHint = some "en_US" ∨ localeHint = some "EN" then (s, [])
    else (removeChar '.' s, ["AMBIGUOUS_NUMBER_FORMAT"])
  else (s, [])

/-- The sign of a figure, in parentheses or with a minus, and the rest. -/
def takeNegative (s : List Char) : Bool × List Char :=
  if s.head? = some '(' ∧ s.getLast? = some ')' then (true, strip U s.tail.dropLast)
  else if s.head? = some '-' then (true, strip U s.tail)
  else (false, s)

/-- `Decimal(norm_str)`, and the sign; an exception that is not `InvalidOperation`
leaves the function. -/
def signedDecimal (s : List Char) (negative : Bool) : Except Decimal.Signal (Option PyDecimal) :=
  match decimalOfText U s with
  | none => .ok none
  | some v =>
    if negative then
      match v.neg Decimal.defaultContext with
      | .ok v => .ok (some v)
      | .error .invalidOperation => .ok none
      | .error x => .error x
    else .ok (some v)

/-- `parse_financial_decimal`. -/
def parseFinancialDecimal (raw : List Char) (localeHint : Option String) :
    Except Decimal.Signal NumberParseResult :=
  let cleaned := strip U raw
  if cleaned = [] then .ok ⟨none, false, ["EMPTY_VALUE"]⟩
  else if cleaned ∈ nullIndicators then .ok ⟨none, false, ["MISSING_VALUE"]⟩
  else
    let lowerCleaned := T.lower cleaned
    if (Regex.search U (exponentPattern U) lowerCleaned).isSome ∨ "nan".toList <:+: lowerCleaned ∨
        "inf".toList <:+: lowerCleaned then
      .ok ⟨none, false, ["FORBIDDEN_EXPONENT_OR_SPECIAL_FLOAT"]⟩
    else
      let isPercentage := cleaned.contains '%' || decide ("yüzde".toList <:+: T.lower cleaned)
      let cleaned := removeYuzde (cleaned.filter fun c => c != '%' && !U.space c)
      let (negative, cleaned) := takeNegative U cleaned
      let (normStr, warnings) := separators cleaned localeHint
      match signedDecimal U normStr negative with
      | .ok (some v) => .ok ⟨some v, isPercentage, warnings⟩
      | .ok none => .ok ⟨none, false, ["UNPARSABLE_NUMBER"]⟩
      | .error x => .error x

/-- The factor of a scale that the code accepts. -/
def scaleFactor (scale : List Char) : Option ℕ := scaleFactors.lookup (strip U (T.upper scale))

/-- What `normalize_scale` raises. -/
inductive ScaleError where
  | unsupportedScale (scale : List Char)
  /-- the multiplication raises -/
  | signal (x : Decimal.Signal)

/-- `normalize_scale`. -/
def normalizeScale (v : PyDecimal) (scale : List Char) : Except ScaleError PyDecimal :=
  match scaleFactor U T scale with
  | none => .error (.unsupportedScale scale)
  | some factor => (v.mulPos Decimal.defaultContext factor).mapError .signal

end NormalizationService

end FinanceIntelligence
