import FinanceIntelligence.GroupPatterns
import FinanceIntelligence.RequestNormalizer

/-!
# How a period is written

`parse_period_keys` (period_expression.py) reads the periods that a text names: ten patterns
are searched in the folded text, and each match gives a year with or without a quarter. A
stored period is named by its columns, its label and its key, and a text matches it if a key
of one matches a key of the other.

The patterns ignore case, and for `re` the dotless ı is an i: a month can match in a spelling
that the table of months does not have. What follows from this is in `PeriodSafety`; what a
list of canonical periods is read as is in `ListedPeriods`.
-/

namespace FinanceIntelligence

/-- What the reading of periods has to know about characters. -/
structure PeriodText where
  /-- classes of characters -/
  chars : CharClass
  /-- `str.casefold`, of one character -/
  caseFold : Char → List Char
  /-- the classes of the ASCII characters -/
  ascii : ∀ c, c.toNat < 128 → chars.word c = CharClass.ascii.word c ∧
    chars.digit c = CharClass.ascii.digit c ∧ chars.space c = CharClass.ascii.space c
  /-- the other letters of the patterns are word characters -/
  word_letter : ∀ c ∈ ['ç', 'Ç', 'ğ', 'Ğ', 'ı', 'İ', 'ö', 'Ö', 'ş', 'Ş', 'ü', 'Ü', 'ſ', '\u212a'],
    chars.word c = true
  /-- no word character is a blank -/
  space_of_word : ∀ c, chars.word c = true → chars.space c = false
  /-- every character folds to something -/
  caseFold_ne_nil : ∀ c, caseFold c ≠ []
  /-- a digit folds to itself -/
  caseFold_digit : ∀ c, (chars.digit c).isSome = true → caseFold c = [c]
  /-- and nothing else folds to a digit -/
  digit_caseFold : ∀ c, ∀ d ∈ caseFold c, (chars.digit d).isSome = true → d = c
  /-- the other ASCII characters fold to small letters -/
  caseFold_ascii : ∀ c, c.toNat < 128 → caseFold c = [c.toLower]

namespace PeriodText

variable (R : PeriodText)

/-- `str.casefold`. -/
def casefold (text : List Char) : List Char := text.flatMap R.caseFold

/-- `\d`. -/
def isDigit (c : Char) : Bool := (R.chars.digit c).isSome

/-- `int(…)` of digits. -/
def int (digits : List Char) : ℕ := digits.foldl (fun n c => 10 * n + (R.chars.digit c).getD 0) 0

end PeriodText

/-- `PeriodKey`. -/
structure PeriodKey where
  fiscalYear : ℕ
  quarter : Option ℕ
deriving DecidableEq

/-- `PeriodKey.matches`. -/
def PeriodKey.matchesKey (key other : PeriodKey) : Bool :=
  key.fiscalYear == other.fiscalYear &&
    (key.quarter.isNone || other.quarter.isNone || key.quarter == other.quarter)

/-- `KeyError`, with the key. -/
structure KeyError where
  /-- what the table does not have -/
  key : List Char
deriving DecidableEq

namespace PeriodExpression

open Pattern

variable (R : PeriodText)

/-! ## Tables -/

/-- `_ORDINAL_WORDS`. -/
def ordinalWords : List (List Char × ℕ) :=
  [("ilk", 1), ("birinci", 1), ("1", 1), ("i", 1), ("ikinci", 2), ("2", 2), ("ii", 2),
    ("üçüncü", 3), ("ucuncu", 3), ("3", 3), ("iii", 3), ("dördüncü", 4), ("dorduncu", 4),
    ("son", 4), ("4", 4), ("iv", 4)].map fun (word, quarter) => (word.toList, quarter)

/-- `_MONTH_TO_QUARTER`. -/
def monthToQuarter : List (List Char × ℕ) :=
  [("ocak", 1), ("şubat", 1), ("subat", 1), ("mart", 1), ("nisan", 2), ("mayıs", 2),
    ("mayis", 2), ("haziran", 2), ("temmuz", 3), ("ağustos", 3), ("agustos", 3), ("eylül", 3),
    ("eylul", 3), ("ekim", 4), ("kasım", 4), ("kasim", 4), ("aralık", 4), ("aralik", 4)].map
      fun (month, quarter) => (month.toList, quarter)

/-! ## Patterns -/

/-- A letter of a pattern, in every case that `re.IGNORECASE` takes for it. -/
def anyCase (c x : Char) : Bool :=
  match c with
  | 'i' => x == 'i' || x == 'I' || x == 'ı' || x == 'İ'
  | 'ı' => x == 'i' || x == 'I' || x == 'ı' || x == 'İ'
  | 's' => x == 's' || x == 'S' || x == 'ſ'
  | 'k' => x == 'k' || x == 'K' || x == '\u212a'
  | 'ç' => x == 'ç' || x == 'Ç'
  | 'ğ' => x == 'ğ' || x == 'Ğ'
  | 'ö' => x == 'ö' || x == 'Ö'
  | 'ş' => x == 'ş' || x == 'Ş'
  | 'ü' => x == 'ü' || x == 'Ü'
  | c => x == c || x == c.toUpper

/-- A word of a pattern. -/
def text (word : List Char) : Pattern (List Char) := chars (word.map anyCase)

/-- The words of a list: `a|b|…`. -/
def oneOf : List (List Char) → Pattern (List Char)
  | [] => fun _ => []
  | word :: words => alt (text word) (oneOf words)

/-- `_YEAR`. -/
def year : Pattern (List Char) := do
  let century ← oneOf [['1', '9'], ['2', '0']]
  let c ← one R.isDigit
  let d ← one R.isDigit
  return century ++ [c, d]

/-- `\s*`. -/
def blanks : Pattern (List Char) := many R.chars.space

/-- `[/\-_ ]?`. -/
def separator : Pattern (List Char) := optOne fun c => c == '/' || c == '-' || c == '_' || c == ' '

/-- `[qç]`. -/
def mark (c : Char) : Bool := anyCase 'q' c || anyCase 'ç' c

/-- `[1-4]`. -/
def quarterDigit (c : Char) : Bool := '1' ≤ c && c ≤ '4'

/-- `_YEAR_THEN_QUARTER`: groups 1 and 3. -/
def yearThenQuarter : Pattern (List Char × Char) := do
  bound R.chars
  let y ← year R
  let _ ← blanks R
  let _ ← separator
  let _ ← blanks R
  let _ ← one mark
  let _ ← blanks R
  let q ← one quarterDigit
  bound R.chars
  return (y, q)

/-- `_QUARTER_THEN_YEAR`: groups 2 and 1. -/
def quarterThenYear : Pattern (List Char × Char) := do
  bound R.chars
  let _ ← optOne mark
  let _ ← blanks R
  let q ← one quarterDigit
  let _ ← blanks R
  let _ ← one mark
  let _ ← blanks R
  let y ← alt (year R) (chars [R.isDigit, R.isDigit])
  bound R.chars
  return (y, q)

/-- `_QUARTER_LABEL_THEN_YEAR`: groups 2 and 1. -/
def quarterLabelThenYear : Pattern (List Char × Char) := do
  bound R.chars
  let _ ← one mark
  let _ ← blanks R
  let q ← one quarterDigit
  let _ ← blanks R
  let _ ← separator
  let _ ← blanks R
  let y ← year R
  bound R.chars
  return (y, q)

/-- `[1-4]|ilk|birinci|…`. -/
def ordinal : Pattern (List Char) :=
  alt (chars [quarterDigit]) (oneOf (["ilk", "birinci", "ikinci", "üçüncü", "ucuncu", "dördüncü",
    "dorduncu", "son"].map String.toList))

/-- `_YEAR_THEN_WORD_QUARTER`: groups 1 and 3. -/
def yearThenWordQuarter : Pattern (List Char × List Char) := do
  bound R.chars
  let y ← year R
  bound R.chars
  few (one fun c => !('0' ≤ c && c ≤ '9')) 24
  bound R.chars
  let w ← ordinal
  bound R.chars
  let _ ← optOne (· == '.')
  let _ ← blanks R
  let _ ← text "çeyre".toList
  return (y, w)

/-- `_WORD_QUARTER_THEN_YEAR`: groups 2 and 1. -/
def wordQuarterThenYear : Pattern (List Char × List Char) := do
  bound R.chars
  let w ← ordinal
  bound R.chars
  let _ ← optOne (· == '.')
  let _ ← blanks R
  let _ ← text "çeyre".toList
  let _ ← many R.chars.word
  let _ ← blanks R
  few (do let _ ← many1 R.chars.word; many1 R.chars.space) 2
  bound R.chars
  let y ← year R
  bound R.chars
  return (y, w)

/-- `\d{1,2}`. -/
def oneOrTwoDigits : Pattern (List Char) := do
  let c ← one R.isDigit
  let u ← optOne R.isDigit
  return c :: u

/-- `[./\-]`. -/
def dateSeparator : Pattern Char := one fun c => c == '.' || c == '/' || c == '-'

/-- `_DMY`: groups 3 and 2. -/
def dmy : Pattern (List Char × List Char) := do
  bound R.chars
  let _ ← oneOrTwoDigits R
  let _ ← dateSeparator
  let m ← oneOrTwoDigits R
  let _ ← dateSeparator
  let y ← year R
  bound R.chars
  return (y, m)

/-- `_YMD`: groups 1 and 3. -/
def ymd : Pattern (List Char × List Char) := do
  bound R.chars
  let y ← year R
  let _ ← dateSeparator
  let m ← oneOrTwoDigits R
  let _ ← dateSeparator
  let _ ← oneOrTwoDigits R
  bound R.chars
  return (y, m)

/-- `ocak|şubat|…`. -/
def month : Pattern (List Char) := oneOf (monthToQuarter.map (·.1))

/-- `_MONTH_THEN_YEAR`: groups 2 and 1. -/
def monthThenYear : Pattern (List Char × List Char) := do
  bound R.chars
  let m ← month
  let _ ← many1 R.chars.space
  let y ← year R
  bound R.chars
  return (y, m)

/-- `_YEAR_THEN_MONTH`: groups 1 and 3. -/
def yearThenMonth : Pattern (List Char × List Char) := do
  bound R.chars
  let y ← year R
  let _ ← many1 R.chars.space
  let m ← month
  bound R.chars
  return (y, m)

/-- `_BARE_YEAR`. -/
def bareYear : Pattern (List Char) := do
  bound R.chars
  let y ← year R
  bound R.chars
  return y

/-! ## Keys -/

/-- `_expand_two_digit_year`. -/
def expandTwoDigitYear (raw : List Char) : ℕ :=
  if 99 < R.int raw then R.int raw else 2000 + R.int raw

/-- The key of a year and an ordinal; an unknown word gives none. -/
def ordinalKey : List Char × List Char → Option PeriodKey
  | (y, w) => (ordinalWords.lookup w).map fun quarter => ⟨R.int y, some quarter⟩

/-- The key of a year and the number of a month; a number that is no month gives none. -/
def dateKey : List Char × List Char → Option PeriodKey
  | (y, m) =>
    if 1 ≤ R.int m ∧ R.int m ≤ 12 then some ⟨R.int y, some ((R.int m - 1) / 3 + 1)⟩ else none

/-- The key of a year and a month: `_MONTH_TO_QUARTER[…]`. -/
def monthKey : List Char × List Char → Except KeyError PeriodKey
  | (y, m) =>
    match monthToQuarter.lookup m with
    | some quarter => .ok ⟨R.int y, some quarter⟩
    | none => .error ⟨m⟩

/-- The keys of the patterns that need no month. -/
def plainKeys (lowered : List Char) : List PeriodKey :=
  ((yearThenQuarter R).finditer lowered).map (fun (y, q) => ⟨R.int y, some (R.int [q])⟩) ++
    ((quarterLabelThenYear R).finditer lowered).map (fun (y, q) => ⟨R.int y, some (R.int [q])⟩) ++
    ((quarterThenYear R).finditer lowered).map (fun (y, q) =>
      ⟨expandTwoDigitYear R y, some (R.int [q])⟩) ++
    ((yearThenWordQuarter R).finditer lowered).filterMap (ordinalKey R) ++
    ((wordQuarterThenYear R).finditer lowered).filterMap (ordinalKey R) ++
    ((ymd R).finditer lowered).filterMap (dateKey R) ++
    ((dmy R).finditer lowered).filterMap (dateKey R)

/-- `parse_period_keys`; the set is given by its members. -/
def parsePeriodKeys (source : List Char) : Except KeyError (List PeriodKey) :=
  if source = [] then .ok []
  else do
    let lowered := R.casefold source
    let keys := plainKeys R lowered
    let monthKeys ← ((monthThenYear R).finditer lowered).mapM (monthKey R)
    let monthKeys' ← ((yearThenMonth R).finditer lowered).mapM (monthKey R)
    let keys := keys ++ monthKeys ++ monthKeys'
    if keys = [] then return ((bareYear R).finditer lowered).map fun y => ⟨R.int y, none⟩
    return keys

/-- `period_record_keys`. -/
def periodRecordKeys (period : ReportingPeriod) : Except KeyError (List PeriodKey) := do
  let label ← parsePeriodKeys R period.label.toList
  let key ← parsePeriodKeys R period.comparisonKey.toList
  return ⟨period.fiscalYear, period.quarter⟩ :: label ++ key

/-- `text_matches_period`. -/
def textMatchesPeriod (source : List Char) (period : ReportingPeriod) : Except KeyError Bool := do
  let asked ← parsePeriodKeys R source
  if asked = [] then return false
  let stored ← periodRecordKeys R period
  return asked.any fun a => stored.any fun s => a.matchesKey s

end PeriodExpression

end FinanceIntelligence
