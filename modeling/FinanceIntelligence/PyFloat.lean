import FinanceIntelligence.Binary64
import FinanceIntelligence.JsonText
import FinanceIntelligence.NumberParsing

/-!
# Python floats

A general layer: the values of `float`, and `float(…)` of an integer, of a text and of JSON data.
A finite double is the rational number that it is.

The texts that `float` takes are those with digits of any script, an exponent and underscores
between digits; infinities and NaN are values of their own.
-/

namespace FinanceIntelligence

/-- A `float`. -/
inductive PyFloat where
  /-- a finite double -/
  | finite (q : ℚ)
  /-- an infinity, negative or not -/
  | infinite (negative : Bool)
  /-- not a number -/
  | nan
deriving DecidableEq

/-- Why `float(…)` raises. -/
inductive FloatError where
  /-- `ValueError` or `TypeError` -/
  | invalid
  /-- `OverflowError` -/
  | overflow
deriving DecidableEq

namespace PyFloat

/-- The double nearest to a number; below the normal range the last place stays where it is. -/
def nearestDouble (q : ℚ) : ℚ :=
  if q = 0 then 0
  else
    let ulp := Binary64.pow2 (max (Binary64.ulpExponent q) (-1074))
    Binary64.nearest (q / ulp) * ulp

/-- The float of an exact result. -/
def ofExact (q : ℚ) : PyFloat :=
  let r := nearestDouble q
  if Binary64.pow2 1024 ≤ |r| then .infinite (r < 0) else .finite r

/-- The value, if it is finite. -/
def value : PyFloat → Option ℚ
  | .finite q => some q
  | _ => none

/-- `float(n)` of an integer. -/
def ofInt (n : ℤ) : Except FloatError PyFloat :=
  match ofExact n with
  | .finite q => .ok (.finite q)
  | _ => .error .overflow

section Text

variable (U : CharClass)

/-- Underscores stand between digits; the flag tells whether a digit came before. -/
def underscoresOk : Bool → List Char → Bool
  | _, [] => true
  | _, ['_'] => false
  | digit, '_' :: c :: cs => digit && (U.digit c).isSome && underscoresOk true cs
  | _, c :: cs => underscoresOk (U.digit c).isSome cs

/-- A number without its sign: digits, a point, digits, an exponent. -/
def numberOf (s : List Char) : Option ℚ :=
  let whole := takeDigits U s
  let fraction :=
    match whole.2 with
    | '.' :: cs => takeDigits U cs
    | cs => ([], cs)
  if whole.1 ++ fraction.1 = [] then none
  else
    (exponentOf U fraction.2).map fun e =>
      ofDigitList (whole.1 ++ fraction.1) * (10 : ℚ) ^ (e - (fraction.1.length : ℤ))

/-- `float(s)` of a text. -/
def ofText (s : List Char) : Except FloatError PyFloat :=
  let s := strip U s
  if !underscoresOk U false s then .error .invalid
  else
    let (negative, s) := takeSign (s.filter (· != '_'))
    match numberOf U s with
    | some q => .ok (ofExact (if negative then -q else q))
    | none =>
      let word := s.map Char.toLower
      if word = "inf".toList ∨ word = "infinity".toList then .ok (.infinite negative)
      else if word = "nan".toList then .ok .nan
      else .error .invalid

/-- `float(j)` of JSON data. -/
def ofJson : Json String PyFloat → Except FloatError PyFloat
  | .int n => ofInt n
  | .double x => .ok x
  | .bool b => .ok (.finite (if b then 1 else 0))
  | .str s => ofText U s.toList
  | .null | .arr _ | .obj _ => .error .invalid

end Text

/-- `isinstance(j, (int, float))`; the booleans are integers. -/
def isNumber {S D : Type} : Json S D → Bool
  | .int _ | .double _ | .bool _ => true
  | _ => false

end PyFloat

end FinanceIntelligence
