import FinanceIntelligence.PyText
import Mathlib.Algebra.Group.Int.Defs
import Mathlib.Data.List.Nodup

/-!
# JSON between two languages

A general layer: `json.dumps` of Python and `json.decode` of Dart. A Python string
is a text of Unicode characters, a Dart string a list of UTF-16 code units; the
printer escapes everything but printable ASCII, and the reader puts the escapes
together again. **What is printed is read**, in front of anything that does not
continue a number.

A double is what the two libraries agree on: `repr` prints it so that it reads back
(`DoubleText`).
-/

namespace FinanceIntelligence

/-- The UTF-16 code units of a character. -/
def utf16Char (c : Char) : List ℕ :=
  let n := c.toNat
  if n < 0x10000 then [n] else [0xD800 + (n - 0x10000) / 1024, 0xDC00 + (n - 0x10000) % 1024]

/-- The UTF-16 code units of a text. -/
def utf16 (text : List Char) : List ℕ := text.flatMap utf16Char

/-- A string of Dart. -/
abbrev DartString := List ℕ

/-! ## Numbers -/

/-- A fraction: nothing, or a point and digits. -/
def IsFraction (l : List Char) : Prop :=
  l = [] ∨ ∃ digits, l = '.' :: digits ∧ digits ≠ [] ∧ ∀ c ∈ digits, c.isDigit = true

/-- An exponent: nothing, or the letter, perhaps a sign, and digits. -/
def IsExponent (l : List Char) : Prop :=
  l = [] ∨ ∃ e sign digits, l = e :: (sign ++ digits) ∧ (e = 'e' ∨ e = 'E') ∧
    (sign = [] ∨ sign = ['+'] ∨ sign = ['-']) ∧ digits ≠ [] ∧ ∀ c ∈ digits, c.isDigit = true

/-- The digits of an integer: zero, or no zero in front. -/
def IsWhole (l : List Char) : Prop :=
  l ≠ [] ∧ (∀ c ∈ l, c.isDigit = true) ∧ (l.head? = some '0' → l = ['0'])

/-- A number with a fraction or an exponent. -/
def IsDoubleLiteral (l : List Char) : Prop :=
  ∃ sign whole fraction exponent, l = sign ++ (whole ++ (fraction ++ exponent)) ∧
    (sign = [] ∨ sign = ['-']) ∧ IsWhole whole ∧ IsFraction fraction ∧ IsExponent exponent ∧
    (fraction ≠ [] ∨ exponent ≠ [])

/-- The finite doubles of two languages. -/
structure DoubleText where
  Double : Type
  /-- `float.__repr__` -/
  repr : Double → List Char
  /-- `double.parse`, of what the reader takes for a number -/
  parse : List Char → Double
  /-- `Double.toString` -/
  toText : Double → List Char
  /-- `repr` prints a number with a fraction or an exponent -/
  literal : ∀ x, IsDoubleLiteral (repr x)
  /-- the nearest double to what `repr` prints is the double -/
  parse_repr : ∀ x, parse (repr x) = x

/-- JSON data with strings and doubles of some kind. -/
inductive Json (S D : Type) where
  | null
  /-- `true` or `false` -/
  | bool (b : Bool)
  /-- an integer -/
  | int (n : ℤ)
  | double (x : D)
  /-- a string -/
  | str (s : S)
  /-- an array -/
  | arr (l : List (Json S D))
  /-- an object, its fields in order -/
  | obj (l : List (S × Json S D))

/-- JSON data of Python. -/
abbrev PyJson (D : DoubleText) := Json (List Char) D.Double

/-- JSON data of Dart. -/
abbrev DartJson (D : DoubleText) := Json DartString D.Double

/-! ## Printing -/

section Print

variable (D : DoubleText)

/-- `\\uXXXX`. -/
def unicodeEscape (n : ℕ) : List Char := '\\' :: 'u' :: hexText 4 n

/-- A character in a printed string. -/
def dumpChar (c : Char) : List Char :=
  if c = '"' ∨ c = '\\' then ['\\', c]
  else if c = '\n' then ['\\', 'n']
  else if c = '\r' then ['\\', 'r']
  else if c = '\t' then ['\\', 't']
  else if c.toNat = 8 then ['\\', 'b']
  else if c.toNat = 12 then ['\\', 'f']
  else if 32 ≤ c.toNat ∧ c.toNat < 127 then [c]
  else (utf16Char c).flatMap unicodeEscape

/-- A printed string. -/
def dumpStr (s : List Char) : List Char := '"' :: (s.flatMap dumpChar ++ ['"'])

/-- A printed integer. -/
def dumpInt (n : ℤ) : List Char :=
  if n < 0 then '-' :: Nat.toDigits 10 n.natAbs else Nat.toDigits 10 n.natAbs

mutual

/-- `json.dumps`. -/
def dumps : PyJson D → List Char
  | .null => "null".toList
  | .bool true => "true".toList
  | .bool false => "false".toList
  | .int n => dumpInt n
  | .double x => D.repr x
  | .str s => dumpStr s
  | .arr l => '[' :: (commaJoin (dumpsList l) ++ [']'])
  | .obj l => '{' :: (commaJoin (dumpsFields l) ++ ['}'])

/-- The elements of an array. -/
def dumpsList : List (PyJson D) → List (List Char)
  | [] => []
  | v :: l => dumps v :: dumpsList l

/-- The fields of an object. -/
def dumpsFields : List (List Char × PyJson D) → List (List Char)
  | [] => []
  | (k, v) :: l => (dumpStr k ++ ':' :: ' ' :: dumps v) :: dumpsFields l

end

end Print

/-! ## Reading -/

section Read

variable (D : DoubleText)

/-- A blank between tokens. -/
def jsonBlank (c : Char) : Bool := c == ' ' || c == '\t' || c == '\n' || c == '\r'

/-- What an escape of one letter stands for. -/
def simpleEscape (c : Char) : Option ℕ :=
  match c with
  | '"' => some 34
  | '\\' => some 92
  | '/' => some 47
  | 'b' => some 8
  | 'f' => some 12
  | 'n' => some 10
  | 'r' => some 13
  | 't' => some 9
  | _ => none

/-- The value of a hexadecimal digit. -/
def hexValue (c : Char) : Option ℕ :=
  if c.isDigit then some (c.toNat - 48)
  else if 'a' ≤ c ∧ c ≤ 'f' then some (c.toNat - 87)
  else if 'A' ≤ c ∧ c ≤ 'F' then some (c.toNat - 55)
  else none

/-- The value of four hexadecimal digits. -/
def hexValue4 (a b c d : Char) : Option ℕ := do
  return (((← hexValue a) * 16 + (← hexValue b)) * 16 + (← hexValue c)) * 16 + (← hexValue d)

/-- The characters of a string up to its closing quote. -/
def readStr : List Char → Option (DartString × List Char)
  | [] => none
  | '"' :: l => some ([], l)
  | '\\' :: 'u' :: a :: b :: c :: d :: l => do
    let n ← hexValue4 a b c d
    (readStr l).map fun (s, rest) => (n :: s, rest)
  | '\\' :: c :: l => do
    let n ← simpleEscape c
    (readStr l).map fun (s, rest) => (n :: s, rest)
  | c :: l =>
    if c.toNat < 32 then none else (readStr l).map fun (s, rest) => (utf16Char c ++ s, rest)

/-- The fraction of a number and what follows. -/
def readFraction : List Char → Option (List Char × List Char)
  | '.' :: l =>
    let (digits, rest) := l.span Char.isDigit
    if digits = [] then none else some ('.' :: digits, rest)
  | l => some ([], l)

/-- A sign and what follows. -/
def readSign (signs : List Char) : List Char → List Char × List Char
  | c :: l => if c ∈ signs then ([c], l) else ([], c :: l)
  | [] => ([], [])

/-- The exponent of a number and what follows. -/
def readExponent : List Char → Option (List Char × List Char)
  | [] => some ([], [])
  | e :: l =>
    if e = 'e' ∨ e = 'E' then
      let (sign, l) := readSign ['+', '-'] l
      let (digits, rest) := l.span Char.isDigit
      if digits = [] then none else some (e :: (sign ++ digits), rest)
    else some ([], e :: l)

/-- The integers of 64 bits. -/
def IsInt64 (n : ℤ) : Prop := -2 ^ 63 ≤ n ∧ n < 2 ^ 63

instance (n : ℤ) : Decidable (IsInt64 n) := inferInstanceAs (Decidable (_ ∧ _))

/-- The value of a sign and digits. -/
def signedValue (sign digits : List Char) : ℤ :=
  if sign = ['-'] then -(Nat.ofDigitChars 10 digits 0 : ℤ) else Nat.ofDigitChars 10 digits 0

/-- A number and what follows. An integer that has no 64 bits is a double. -/
def readNumber (l : List Char) : Option (DartJson D × List Char) :=
  let (sign, l) := readSign ['-'] l
  let (whole, l) := l.span Char.isDigit
  if whole = [] ∨ whole.head? = some '0' ∧ whole ≠ ['0'] then none
  else (readFraction l).bind fun (fraction, l) => (readExponent l).map fun (exponent, rest) =>
    if fraction = [] ∧ exponent = [] ∧ IsInt64 (signedValue sign whole) then
      (.int (signedValue sign whole), rest)
    else (.double (D.parse (sign ++ (whole ++ (fraction ++ exponent)))), rest)

/-- A map with a field set: in its place, or at the end. -/
def setField {D : DoubleText} (m : List (DartString × DartJson D)) (k : DartString)
    (v : DartJson D) : List (DartString × DartJson D) :=
  if m.any fun (k', _) => k' == k then m.map fun (k', w) => if k' == k then (k, v) else (k', w)
  else m ++ [(k, v)]

/-- The map of fields that are read one after the other. -/
def mapOfFields {D : DoubleText} (fields : List (DartString × DartJson D)) :
    List (DartString × DartJson D) :=
  fields.foldl (fun m (k, v) => setField m k v) []

mutual

/-- A value and what follows; the first argument bounds the length of the text. -/
def readValue : ℕ → List Char → Option (DartJson D × List Char)
  | 0, _ => none
  | n + 1, l =>
    match l.dropWhile jsonBlank with
    | 'n' :: 'u' :: 'l' :: 'l' :: rest => some (.null, rest)
    | 't' :: 'r' :: 'u' :: 'e' :: rest => some (.bool true, rest)
    | 'f' :: 'a' :: 'l' :: 's' :: 'e' :: rest => some (.bool false, rest)
    | '"' :: rest => (readStr rest).map fun (s, rest) => (.str s, rest)
    | '[' :: rest =>
      match rest.dropWhile jsonBlank with
      | ']' :: rest => some (.arr [], rest)
      | _ => (readElements n rest).map fun (l, rest) => (.arr l, rest)
    | '{' :: rest =>
      match rest.dropWhile jsonBlank with
      | '}' :: rest => some (.obj [], rest)
      | _ => (readFields n rest).map fun (l, rest) => (.obj (mapOfFields l), rest)
    | l => readNumber D l

/-- The elements of an array up to its closing bracket. -/
def readElements : ℕ → List Char → Option (List (DartJson D) × List Char)
  | 0, _ => none
  | n + 1, l =>
    (readValue n l).bind fun (v, rest) =>
      match rest.dropWhile jsonBlank with
      | ']' :: rest => some ([v], rest)
      | ',' :: rest => (readElements n rest).map fun (l, rest) => (v :: l, rest)
      | _ => none

/-- The fields of an object up to its closing bracket. -/
def readFields : ℕ → List Char → Option (List (DartString × DartJson D) × List Char)
  | 0, _ => none
  | n + 1, l =>
    match l.dropWhile jsonBlank with
    | '"' :: rest =>
      (readStr rest).bind fun (k, rest) =>
        match rest.dropWhile jsonBlank with
        | ':' :: rest =>
          (readValue n rest).bind fun (v, rest) =>
            match rest.dropWhile jsonBlank with
            | '}' :: rest => some ([(k, v)], rest)
            | ',' :: rest => (readFields n rest).map fun (l, rest) => ((k, v) :: l, rest)
            | _ => none
        | _ => none
    | _ => none

end

/-- `json.decode`; nothing but blanks may follow the value. -/
def jsonDecode (text : List Char) : Option (DartJson D) :=
  match readValue D (text.length + 1) text with
  | some (v, rest) => if rest.all jsonBlank then some v else none
  | none => none

end Read

/-! ## What is printed is read -/

section Strings

variable {c : Char} {s t : List Char} {rest : List Char}

theorem hexValue_hexDigit : ∀ d < 16, hexValue (hexDigit d) = some d := by decide

/-- Four printed digits. -/
theorem hexText_four (n : ℕ) : hexText 4 n =
    [hexDigit (n / 4096 % 16), hexDigit (n / 256 % 16), hexDigit (n / 16 % 16), hexDigit (n % 16)] := by
  simp [hexText, Nat.div_div_eq_div_mul]

/-- An escape is one code unit. -/
theorem readStr_unicodeEscape {n : ℕ} (hn : n < 65536) :
    readStr (unicodeEscape n ++ rest) = (readStr rest).map fun (s, rest) => (n :: s, rest) := by
  have hvalue : hexValue4 (hexDigit (n / 4096 % 16)) (hexDigit (n / 256 % 16))
      (hexDigit (n / 16 % 16)) (hexDigit (n % 16)) = some n := by
    simp only [hexValue4, hexValue_hexDigit _ (Nat.mod_lt _ (by decide : 0 < 16)),
      Option.pure_def, Option.bind_eq_bind, Option.bind_some, Option.some.injEq]
    omega
  simp [unicodeEscape, hexText_four, readStr, hvalue]

/-- The code units of a character have 16 bits. -/
theorem utf16Char_lt {n : ℕ} (h : n ∈ utf16Char c) : n < 65536 := by
  have hvalid : c.toNat < 0xD800 ∨ 0xDFFF < c.toNat ∧ c.toNat < 0x110000 := c.valid
  rw [utf16Char] at h
  split at h
  · rw [List.mem_singleton] at h
    omega
  · simp only [List.mem_cons, List.not_mem_nil, or_false] at h
    omega

/-- A character that stands for itself. -/
theorem readStr_plain (hq : c ≠ '"') (hb : c ≠ '\\') (hc : 32 ≤ c.toNat) :
    readStr (c :: rest) = (readStr rest).map fun (s, rest) => (utf16Char c ++ s, rest) := by
  rw [readStr.eq_def]
  split
  · simp_all
  · simp_all
  · simp_all
  · simp_all
  · rename_i heq
    obtain ⟨rfl, rfl⟩ := List.cons_eq_cons.mp heq
    rw [if_neg (by omega)]

/-- **A character** is read from its text. -/
theorem readStr_dumpChar : readStr (dumpChar c ++ rest) =
    (readStr rest).map fun (s, rest) => (utf16Char c ++ s, rest) := by
  have hchar : ∀ {d : Char}, c.toNat = d.toNat → c = d := Char.toNat_inj.mp
  unfold dumpChar
  split
  · rename_i h
    rcases h with rfl | rfl <;> simp [readStr, simpleEscape, utf16Char]
  split
  · subst_vars
    simp [readStr, simpleEscape, utf16Char]
  split
  · subst_vars
    simp [readStr, simpleEscape, utf16Char]
  split
  · subst_vars
    simp [readStr, simpleEscape, utf16Char]
  split
  · rename_i h
    simp [readStr, simpleEscape, utf16Char, h]
  split
  · rename_i h
    simp [readStr, simpleEscape, utf16Char, h]
  split
  · rename_i hquote _ _ _ _ _ h
    rw [List.singleton_append]
    exact readStr_plain (fun h => hquote (.inl h)) (fun h => hquote (.inr h)) h.1
  · -- one escape for each code unit
    have hall : ∀ (l : List ℕ), (∀ n ∈ l, n < 65536) → readStr (l.flatMap unicodeEscape ++ rest) =
        (readStr rest).map fun (s, rest) => (l ++ s, rest) := by
      intro l hl
      induction l with
      | nil => simp
      | cons n l ih =>
        rw [List.flatMap_cons, List.append_assoc, readStr_unicodeEscape (hl n List.mem_cons_self),
          ih fun m hm => hl m (List.mem_cons_of_mem n hm)]
        cases readStr rest <;> simp
    exact hall _ fun n => utf16Char_lt

/-- **A string** is read as its code units. -/
theorem readStr_dumpStr : readStr (s.flatMap dumpChar ++ '"' :: rest) = some (utf16 s, rest) := by
  induction s with
  | nil => simp [readStr, utf16]
  | cons c s ih =>
    rw [List.flatMap_cons, List.append_assoc, readStr_dumpChar, ih]
    simp [utf16]

/-- Different texts have different code units. -/
theorem utf16_injective : Function.Injective utf16 := by
  intro s
  induction s with
  | nil =>
    rintro (_ | ⟨d, t⟩) h
    · rfl
    · rw [utf16, utf16, List.flatMap_cons, List.flatMap_nil] at h
      have := (List.append_eq_nil_iff.mp h.symm).1
      rw [utf16Char] at this
      split at this <;> cases this
  | cons c s ih =>
    have hunits : ∀ {c d : Char} {x y : List ℕ}, utf16Char c ++ x = utf16Char d ++ y →
        c = d ∧ x = y := by
      intro c d x y h
      have hc : c.toNat < 0xD800 ∨ 0xDFFF < c.toNat ∧ c.toNat < 0x110000 := c.valid
      have hd : d.toNat < 0xD800 ∨ 0xDFFF < d.toNat ∧ d.toNat < 0x110000 := d.valid
      rw [utf16Char, utf16Char] at h
      split at h <;> split at h
      · obtain ⟨hhead, htail⟩ := List.cons_eq_cons.mp h
        exact ⟨Char.toNat_inj.mp hhead, htail⟩
      · have := (List.cons_eq_cons.mp h).1
        omega
      · have := (List.cons_eq_cons.mp h).1
        omega
      · obtain ⟨hhead, htail⟩ := List.cons_eq_cons.mp h
        obtain ⟨hsecond, hrest⟩ := List.cons_eq_cons.mp htail
        refine ⟨Char.toNat_inj.mp ?_, hrest⟩
        omega
    rintro (_ | ⟨d, t⟩) h
    · rw [utf16, utf16, List.flatMap_cons, List.flatMap_nil] at h
      have := (List.append_eq_nil_iff.mp h).1
      rw [utf16Char] at this
      split at this <;> cases this
    · rw [utf16, utf16, List.flatMap_cons, List.flatMap_cons] at h
      obtain ⟨rfl, hrest⟩ := hunits h
      rw [ih hrest]

end Strings

section Numbers

variable {D : DoubleText} {rest : List Char}

/-- What may follow a number. -/
def StopsNumber (rest : List Char) : Prop :=
  ∀ c ∈ rest.head?, c.isDigit = false ∧ c ≠ '.' ∧ c ≠ 'e' ∧ c ≠ 'E'

theorem span_digits {digits : List Char} (hdigits : ∀ c ∈ digits, c.isDigit = true)
    (hrest : ∀ c ∈ rest.head?, c.isDigit = false) :
    (digits ++ rest).span Char.isDigit = (digits, rest) := by
  have htake : rest.takeWhile Char.isDigit = [] := by
    cases rest with
    | nil => rfl
    | cons c rest => exact List.takeWhile_cons_of_neg (by simp [hrest c rfl])
  have hdrop : rest.dropWhile Char.isDigit = rest := by
    cases rest with
    | nil => rfl
    | cons c rest => exact List.dropWhile_cons_of_neg (by simp [hrest c rfl])
  rw [List.span_eq_takeWhile_dropWhile, List.takeWhile_append_of_pos hdigits,
    List.dropWhile_append_of_pos hdigits, htake, hdrop, List.append_nil]

theorem IsWhole.head {whole : List Char} (h : IsWhole whole) :
    ∃ c l, whole = c :: l ∧ c.isDigit = true := by
  obtain ⟨hne, hdigits, -⟩ := h
  cases whole with
  | nil => exact absurd rfl hne
  | cons c l => exact ⟨c, l, rfl, hdigits c List.mem_cons_self⟩

theorem readSign_append {signs sign : List Char} {c : Char} {l : List Char}
    (hsign : sign = [] ∨ ∃ x ∈ signs, sign = [x]) (hc : c ∉ signs) :
    readSign signs (sign ++ c :: l) = (sign, c :: l) := by
  rcases hsign with rfl | ⟨x, hx, rfl⟩
  · simp [readSign, hc]
  · simp [readSign, hx]

theorem not_mem_of_isDigit {c : Char} {signs : List Char} (hsigns : ∀ x ∈ signs, x.isDigit = false)
    (hc : c.isDigit = true) : c ∉ signs := by
  intro hmem
  rw [hsigns c hmem] at hc
  cases hc

theorem readFraction_append {fraction : List Char} (h : IsFraction fraction)
    (hrest : ∀ c ∈ rest.head?, c.isDigit = false ∧ c ≠ '.') :
    readFraction (fraction ++ rest) = some (fraction, rest) := by
  rcases h with rfl | ⟨digits, rfl, hne, hdigits⟩
  · cases rest with
    | nil => rfl
    | cons c rest =>
      rw [List.nil_append, readFraction.eq_def]
      split
      · rename_i heq
        exact absurd (List.cons_eq_cons.mp heq).1 (hrest c rfl).2
      · rfl
  · rw [List.cons_append, readFraction, span_digits hdigits fun c hc => (hrest c hc).1]
    simp [hne]

theorem readExponent_append {exponent : List Char} (h : IsExponent exponent)
    (hrest : StopsNumber rest) : readExponent (exponent ++ rest) = some (exponent, rest) := by
  rcases h with rfl | ⟨e, sign, digits, rfl, he, hsign, hne, hdigits⟩
  · cases rest with
    | nil => rfl
    | cons c rest =>
      obtain ⟨-, -, h₁, h₂⟩ := hrest c rfl
      simp [readExponent, h₁, h₂]
  · obtain ⟨c, l, rfl⟩ := List.exists_cons_of_ne_nil hne
    have hc : c ∉ ['+', '-'] :=
      not_mem_of_isDigit (by simp) (hdigits c List.mem_cons_self)
    have hsigned : readSign ['+', '-'] (sign ++ c :: (l ++ rest)) = (sign, c :: (l ++ rest)) := by
      refine readSign_append ?_ hc
      rcases hsign with rfl | rfl | rfl
      · exact .inl rfl
      · exact .inr ⟨'+', by decide, rfl⟩
      · exact .inr ⟨'-', by decide, rfl⟩
    have hspan := span_digits hdigits fun c hc => (hrest c hc).1
    rw [List.cons_append] at hspan
    simp only [List.cons_append, List.append_assoc, readExponent, if_pos he, hsigned, hspan]
    simp

/-- **A number** is cut into its parts. -/
theorem readNumber_append {sign whole fraction exponent : List Char}
    (hsign : sign = [] ∨ sign = ['-']) (hwhole : IsWhole whole) (hfraction : IsFraction fraction)
    (hexponent : IsExponent exponent) (hrest : StopsNumber rest) :
    readNumber D (sign ++ (whole ++ (fraction ++ (exponent ++ rest)))) = some
      (if fraction = [] ∧ exponent = [] ∧ IsInt64 (signedValue sign whole) then
        .int (signedValue sign whole)
      else .double (D.parse (sign ++ (whole ++ (fraction ++ exponent)))), rest) := by
  obtain ⟨c, l, hcons, hc⟩ := hwhole.head
  have hnot : c ∉ ['-'] := not_mem_of_isDigit (by simp) hc
  -- what follows the fraction, and what follows the digits
  have hexpHead : ∀ d ∈ (exponent ++ rest).head?, d.isDigit = false ∧ d ≠ '.' := by
    intro d hd
    rcases hexponent with rfl | ⟨e, sign', digits, rfl, he, -⟩
    · obtain ⟨h₁, h₂, -⟩ := hrest d hd
      exact ⟨h₁, h₂⟩
    · obtain rfl : d = e := by simpa using hd.symm
      rcases he with rfl | rfl <;> decide
  have hfracHead : ∀ d ∈ (fraction ++ (exponent ++ rest)).head?, d.isDigit = false := by
    intro d hd
    rcases hfraction with rfl | ⟨digits, rfl, -⟩
    · exact (hexpHead d hd).1
    · obtain rfl : d = '.' := by simpa using hd.symm
      decide
  have hsigned : readSign ['-'] (sign ++ (whole ++ (fraction ++ (exponent ++ rest)))) =
      (sign, whole ++ (fraction ++ (exponent ++ rest))) := by
    rw [hcons, List.cons_append]
    refine readSign_append ?_ hnot
    rcases hsign with rfl | rfl
    · exact .inl rfl
    · exact .inr ⟨'-', by decide, rfl⟩
  have hok : ¬ (whole = [] ∨ whole.head? = some '0' ∧ whole ≠ ['0']) := by
    rintro (h | ⟨h, h'⟩)
    · exact hwhole.1 h
    · exact h' (hwhole.2.2 h)
  rw [readNumber, hsigned]
  simp only [span_digits hwhole.2.1 hfracHead, if_neg hok, readFraction_append hfraction hexpHead,
    Option.bind_some, readExponent_append hexponent hrest, Option.map_some]
  split <;> rfl

/-- **A double** is read as itself. -/
theorem readNumber_repr {x : D.Double} (hrest : StopsNumber rest) :
    readNumber D (D.repr x ++ rest) = some (.double x, rest) := by
  obtain ⟨sign, whole, fraction, exponent, hrepr, hsign, hwhole, hfraction, hexponent, hparts⟩ :=
    D.literal x
  have h := readNumber_append (D := D) hsign hwhole hfraction hexponent hrest
  rw [if_neg fun hempty => hparts.elim (absurd hempty.1) (absurd hempty.2.1), ← hrepr,
    D.parse_repr] at h
  rw [← h, hrepr]
  simp only [List.append_assoc]

/-- The digits of a number. -/
theorem isWhole_toDigits (n : ℕ) : IsWhole (Nat.toDigits 10 n) := by
  refine ⟨Nat.toDigits_ne_nil, fun c hc => Nat.isDigit_of_mem_toDigits (by decide) (by decide) hc, ?_⟩
  induction n using Nat.strong_induction_on with
  | _ n ih =>
    intro hhead
    rw [Nat.toDigits_eq_if (by decide)] at hhead ⊢
    split
    · rename_i hlt
      rw [if_pos hlt] at hhead
      rw [Option.some.inj hhead]
    · rename_i hge
      rw [if_neg hge, List.head?_append_of_ne_nil _ Nat.toDigits_ne_nil] at hhead
      have hzero := ih (n / 10) (by omega) hhead
      have hvalue : Nat.ofDigitChars 10 (Nat.toDigits 10 (n / 10)) 0 = n / 10 :=
        Nat.ofDigitChars_ten_toDigits
      rw [hzero] at hvalue
      have : Nat.ofDigitChars 10 ['0'] 0 = 0 := by decide
      omega

/-- **An integer** is read as itself. -/
theorem readNumber_dumpInt {n : ℤ} (hn : IsInt64 n) (hrest : StopsNumber rest) :
    readNumber D (dumpInt n ++ rest) = some (.int n, rest) := by
  have hread : ∀ sign : List Char, sign = [] ∨ sign = ['-'] →
      signedValue sign (Nat.toDigits 10 n.natAbs) = n →
        readNumber D (sign ++ (Nat.toDigits 10 n.natAbs ++ rest)) = some (.int n, rest) := by
    intro sign hsign hvalue
    have h := readNumber_append (D := D) hsign (isWhole_toDigits n.natAbs) (.inl rfl) (.inl rfl) hrest
    rwa [hvalue, if_pos ⟨rfl, rfl, hn⟩] at h
  rw [dumpInt]
  split
  · refine hread ['-'] (.inr rfl) ?_
    rw [signedValue, if_pos rfl, Nat.ofDigitChars_ten_toDigits]
    omega
  · refine hread [] (.inl rfl) ?_
    rw [signedValue, if_neg (by decide), Nat.ofDigitChars_ten_toDigits]
    omega

end Numbers

section Values

variable {D : DoubleText}

mutual

/-- The data as Dart has it. -/
def Json.toDart : PyJson D → DartJson D
  | .null => .null
  | .bool b => .bool b
  | .int n => .int n
  | .double x => .double x
  | .str s => .str (utf16 s)
  | .arr l => .arr (Json.toDartList l)
  | .obj l => .obj (Json.toDartFields l)

/-- The elements of an array. -/
def Json.toDartList : List (PyJson D) → List (DartJson D)
  | [] => []
  | v :: l => v.toDart :: Json.toDartList l

/-- The fields of an object. -/
def Json.toDartFields : List (List Char × PyJson D) → List (DartString × DartJson D)
  | [] => []
  | (k, v) :: l => (utf16 k, v.toDart) :: Json.toDartFields l

end

mutual

/-- Every integer has 64 bits and the keys of an object differ. -/
def Json.Wf : PyJson D → Prop
  | .int n => IsInt64 n
  | .arr l => Json.WfList l
  | .obj l => (l.map (·.1)).Nodup ∧ Json.WfFields l
  | _ => True

/-- Every element. -/
def Json.WfList : List (PyJson D) → Prop
  | [] => True
  | v :: l => v.Wf ∧ Json.WfList l

/-- Every field. -/
def Json.WfFields : List (List Char × PyJson D) → Prop
  | [] => True
  | (_, v) :: l => v.Wf ∧ Json.WfFields l

end

theorem Json.toDartFields_keys (l : List (List Char × PyJson D)) :
    (Json.toDartFields l).map (·.1) = (l.map (·.1)).map utf16 := by
  induction l with
  | nil => rfl
  | cons f l ih => rw [toDartFields, List.map_cons, ih, List.map_cons, List.map_cons]

/-- Fields with different keys are the map. -/
theorem mapOfFields_eq {l : List (DartString × DartJson D)} (h : (l.map (·.1)).Nodup) :
    mapOfFields l = l := by
  have hfold : ∀ (m l : List (DartString × DartJson D)), ((m ++ l).map (·.1)).Nodup →
      l.foldl (fun m (k, v) => setField m k v) m = m ++ l := by
    intro m l
    induction l generalizing m with
    | nil => simp
    | cons f l ih =>
      intro hnodup
      obtain ⟨k, v⟩ := f
      have hfresh : ∀ f ∈ m, ¬ (f.1 == k) = true := by
        intro f hf heq
        rw [List.map_append, List.map_cons] at hnodup
        have hdisjoint := (List.nodup_append.mp hnodup).2.2
        exact hdisjoint f.1 (List.mem_map_of_mem hf) k List.mem_cons_self (beq_iff_eq.mp heq)
      have hset : setField m k v = m ++ [(k, v)] := by
        refine if_neg fun hany => ?_
        obtain ⟨f, hf, heq⟩ := List.any_eq_true.mp hany
        exact hfresh f hf heq
      rw [List.foldl_cons]
      simp only [hset]
      rw [ih _ (by simpa using hnodup), List.append_assoc, List.singleton_append]
  exact hfold [] l h

/-- A number begins with its sign or a digit. -/
theorem readValue_number {n : ℕ} {c : Char} {l : List Char} (hc : c.isDigit = true ∨ c = '-') :
    readValue D (n + 1) (c :: l) = readNumber D (c :: l) := by
  have hdrop : (c :: l).dropWhile jsonBlank = c :: l := by
    refine List.dropWhile_cons_of_neg ?_
    rcases hc with hc | rfl
    · intro hblank
      simp only [jsonBlank, Bool.or_eq_true, beq_iff_eq] at hblank
      rcases hblank with ((rfl | rfl) | rfl) | rfl <;> revert hc <;> decide
    · decide
  have hne : ∀ d : Char, d.isDigit = false → d ≠ '-' → c ≠ d := by
    rintro d hd hd' rfl
    rcases hc with hc | rfl
    · rw [hc] at hd
      cases hd
    · exact hd' rfl
  rw [readValue, hdrop]
  split
  · rename_i heq
    exact absurd (List.cons_eq_cons.mp heq).1 (hne 'n' (by decide) (by decide))
  · rename_i heq
    exact absurd (List.cons_eq_cons.mp heq).1 (hne 't' (by decide) (by decide))
  · rename_i heq
    exact absurd (List.cons_eq_cons.mp heq).1 (hne 'f' (by decide) (by decide))
  · rename_i heq
    exact absurd (List.cons_eq_cons.mp heq).1 (hne '"' (by decide) (by decide))
  · rename_i heq
    exact absurd (List.cons_eq_cons.mp heq).1 (hne '[' (by decide) (by decide))
  · rename_i heq
    exact absurd (List.cons_eq_cons.mp heq).1 (hne '{' (by decide) (by decide))
  · rfl

/-- A blank in front of a value is skipped. -/
theorem readValue_blank (n : ℕ) (l : List Char) :
    readValue D n (' ' :: l) = readValue D n l := by
  cases n with
  | zero => rfl
  | succ n =>
    rw [readValue, readValue, List.dropWhile_cons_of_pos (by decide)]

theorem readElements_blank (n : ℕ) (l : List Char) :
    readElements D n (' ' :: l) = readElements D n l := by
  cases n with
  | zero => rfl
  | succ n => rw [readElements, readElements, readValue_blank]

theorem readFields_blank (n : ℕ) (l : List Char) :
    readFields D n (' ' :: l) = readFields D n l := by
  cases n with
  | zero => rfl
  | succ n => rw [readFields, readFields, List.dropWhile_cons_of_pos (by decide)]

theorem dumpInt_head (n : ℤ) : ∃ c l, dumpInt n = c :: l ∧ (c.isDigit = true ∨ c = '-') := by
  obtain ⟨c, l, hcons, hc⟩ := (isWhole_toDigits n.natAbs).head
  rw [dumpInt]
  split
  · exact ⟨_, _, rfl, .inr rfl⟩
  · exact ⟨c, l, hcons, .inl hc⟩

theorem repr_head (x : D.Double) : ∃ c l, D.repr x = c :: l ∧ (c.isDigit = true ∨ c = '-') := by
  obtain ⟨sign, whole, fraction, exponent, hrepr, hsign, hwhole, -⟩ := D.literal x
  obtain ⟨c, l, hcons, hc⟩ := hwhole.head
  rw [hrepr, hcons]
  rcases hsign with rfl | rfl
  · exact ⟨_, _, rfl, .inl hc⟩
  · exact ⟨_, _, rfl, .inr rfl⟩

/-- How a printed value begins. -/
theorem dumps_head (v : PyJson D) :
    ∃ c l, dumps D v = c :: l ∧ jsonBlank c = false ∧ c ≠ ']' := by
  have hnumber : ∀ {c : Char}, c.isDigit = true ∨ c = '-' → jsonBlank c = false ∧ c ≠ ']' := by
    rintro c (hc | rfl)
    · have hne : ∀ d : Char, d.isDigit = false → c ≠ d := by
        rintro d hd rfl
        rw [hc] at hd
        cases hd
      simp [jsonBlank, hne ' ' (by decide), hne '\t' (by decide), hne '\n' (by decide),
        hne '\r' (by decide), hne ']' (by decide)]
    · decide
  cases v with
  | null => exact ⟨'n', _, by rw [dumps]; rfl, by decide, by decide⟩
  | bool b =>
    cases b
    · exact ⟨'f', _, by rw [dumps]; rfl, by decide, by decide⟩
    · exact ⟨'t', _, by rw [dumps]; rfl, by decide, by decide⟩
  | int n =>
    obtain ⟨c, l, hcons, hc⟩ := dumpInt_head n
    exact ⟨c, l, by rw [dumps, hcons], hnumber hc⟩
  | double x =>
    obtain ⟨c, l, hcons, hc⟩ := repr_head x
    exact ⟨c, l, by rw [dumps, hcons], hnumber hc⟩
  | str s => exact ⟨'"', _, by rw [dumps, dumpStr], by decide, by decide⟩
  | arr l => exact ⟨'[', _, by rw [dumps], by decide, by decide⟩
  | obj l => exact ⟨'{', _, by rw [dumps], by decide, by decide⟩

theorem commaJoin_head {x : List Char} {l : List (List Char)} {c : Char} {y : List Char}
    (hx : x = c :: y) : ∃ z, commaJoin (x :: l) = c :: z := by
  subst hx
  cases l with
  | nil => exact ⟨y, rfl⟩
  | cons w l => exact ⟨_, rfl⟩

theorem stopsNumber_cons {c : Char} {rest : List Char}
    (hc : c.isDigit = false ∧ c ≠ '.' ∧ c ≠ 'e' ∧ c ≠ 'E') : StopsNumber (c :: rest) := by
  intro d hd
  obtain rfl : d = c := by simpa using hd.symm
  exact hc

/-- An array that is not empty. -/
theorem readValue_array {n : ℕ} {c : Char} {l : List Char} (hblank : jsonBlank c = false)
    (hc : c ≠ ']') : readValue D (n + 1) ('[' :: c :: l) =
      (readElements D n (c :: l)).map fun (l, rest) => (.arr l, rest) := by
  have hopen : ('[' :: c :: l).dropWhile jsonBlank = '[' :: c :: l :=
    List.dropWhile_cons_of_neg (by decide)
  have hdrop : (c :: l).dropWhile jsonBlank = c :: l :=
    List.dropWhile_cons_of_neg (by simp [hblank])
  rw [readValue, hopen]
  simp only [hdrop]
  split
  · rename_i heq
    exact absurd (List.cons_eq_cons.mp heq).1 hc
  · rfl

/-- An object that is not empty. -/
theorem readValue_object {n : ℕ} {l : List Char} : readValue D (n + 1) ('{' :: '"' :: l) =
    (readFields D n ('"' :: l)).map fun (l, rest) => (.obj (mapOfFields l), rest) := by
  have hopen : ('{' :: '"' :: l).dropWhile jsonBlank = '{' :: '"' :: l :=
    List.dropWhile_cons_of_neg (by decide)
  have hdrop : ('"' :: l).dropWhile jsonBlank = '"' :: l :=
    List.dropWhile_cons_of_neg (by decide)
  rw [readValue, hopen]
  simp only [hdrop]
  rfl

/-- The text of a field. -/
theorem dumpsFields_cons (k : List Char) (v : PyJson D) (l : List (List Char × PyJson D)) :
    dumpsFields D ((k, v) :: l) =
      ('"' :: (k.flatMap dumpChar ++ '"' :: ':' :: ' ' :: dumps D v)) :: dumpsFields D l := by
  rw [dumpsFields, dumpStr]
  simp

mutual

/-- **A value** is read from its text. -/
theorem readValue_dumps : ∀ (v : PyJson D) (n : ℕ) (rest : List Char), v.Wf →
    (dumps D v).length < n → StopsNumber rest →
      readValue D n (dumps D v ++ rest) = some (v.toDart, rest)
  | v, 0, rest, _, hn, _ => absurd hn (Nat.not_lt_zero _)
  | .null, n + 1, rest, _, _, _ => by simp [dumps, readValue, Json.toDart, jsonBlank]
  | .bool true, n + 1, rest, _, _, _ => by simp [dumps, readValue, Json.toDart, jsonBlank]
  | .bool false, n + 1, rest, _, _, _ => by simp [dumps, readValue, Json.toDart, jsonBlank]
  | .int i, n + 1, rest, hwf, _, hrest => by
    obtain ⟨c, l, hcons, hc⟩ := dumpInt_head i
    have hread := readNumber_dumpInt (D := D) hwf hrest
    rw [dumps, Json.toDart, ← hread, hcons]
    exact readValue_number hc
  | .double x, n + 1, rest, _, _, hrest => by
    obtain ⟨c, l, hcons, hc⟩ := repr_head x
    have hread := readNumber_repr (x := x) hrest
    rw [dumps, Json.toDart, ← hread, hcons]
    exact readValue_number hc
  | .str s, n + 1, rest, _, _, _ => by
    have hread : readStr (s.flatMap dumpChar ++ '"' :: rest) = _ := readStr_dumpStr
    simp [dumps, dumpStr, readValue, Json.toDart, jsonBlank, hread]
  | .arr [], n + 1, rest, _, _, _ => by
    simp [dumps, dumpsList, commaJoin, readValue, Json.toDart, Json.toDartList, jsonBlank]
  | .arr (v :: l), n + 1, rest, hwf, hn, _ => by
    obtain ⟨c, x, hcons, hblank, hc⟩ := dumps_head v
    obtain ⟨z, hz⟩ := commaJoin_head (l := dumpsList D l) hcons
    have hread := readElements_dumps (v :: l) n rest (by simp) hwf (by
      simp only [dumps, List.length_cons, List.length_append, List.length_nil] at hn
      omega)
    rw [dumpsList, hz] at hread
    rw [dumps, dumpsList, hz, Json.toDart]
    simp only [List.cons_append, List.append_assoc, List.nil_append] at hread ⊢
    rw [readValue_array hblank hc, hread]
    rfl
  | .obj [], n + 1, rest, _, _, _ => by
    simp [dumps, dumpsFields, commaJoin, readValue, Json.toDart, Json.toDartFields, jsonBlank]
  | .obj ((k, v) :: l), n + 1, rest, hwf, hn, _ => by
    obtain ⟨z, hz⟩ := commaJoin_head (l := dumpsFields D l)
      (x := '"' :: (k.flatMap dumpChar ++ '"' :: ':' :: ' ' :: dumps D v)) rfl
    have hread := readFields_dumps ((k, v) :: l) n rest (by simp) hwf.2 (by
      simp only [dumps, List.length_cons, List.length_append, List.length_nil] at hn
      omega)
    have hkeys : ((Json.toDartFields ((k, v) :: l)).map (·.1)).Nodup := by
      rw [Json.toDartFields_keys]
      exact List.Nodup.map utf16_injective hwf.1
    rw [dumpsFields_cons, hz] at hread
    rw [dumps, dumpsFields_cons, hz, Json.toDart]
    simp only [List.cons_append, List.append_assoc, List.nil_append] at hread ⊢
    rw [readValue_object, hread]
    simp only [Option.map_some, mapOfFields_eq hkeys]

/-- The elements of an array. -/
theorem readElements_dumps : ∀ (l : List (PyJson D)) (n : ℕ) (rest : List Char), l ≠ [] →
    Json.WfList l → (commaJoin (dumpsList D l)).length + 1 < n →
      readElements D n (commaJoin (dumpsList D l) ++ ']' :: rest) =
        some (Json.toDartList l, rest)
  | [], _, _, hne, _, _ => absurd rfl hne
  | _ :: _, 0, _, _, _, hn => absurd hn (Nat.not_lt_zero _)
  | [v], n + 1, rest, _, hwf, hn => by
    have hv := readValue_dumps v n (']' :: rest) hwf.1 (by
      simp only [dumpsList, commaJoin] at hn
      omega) (stopsNumber_cons (by decide))
    simp [dumpsList, commaJoin, readElements, hv, jsonBlank, Json.toDartList]
  | v :: w :: l, n + 1, rest, _, hwf, hn => by
    have hlength : (commaJoin (dumpsList D (v :: w :: l))).length =
        (dumps D v).length + 2 + (commaJoin (dumpsList D (w :: l))).length := by
      simp only [dumpsList, commaJoin, List.length_append, List.length_cons]
      omega
    have hv := readValue_dumps v n (',' :: ' ' :: (commaJoin (dumpsList D (w :: l)) ++ ']' :: rest))
      hwf.1 (by omega) (stopsNumber_cons (by decide))
    have hl := readElements_dumps (w :: l) n rest (by simp) hwf.2 (by omega)
    simp only [dumpsList] at hv hl
    simp [dumpsList, commaJoin, readElements, hv, jsonBlank, Json.toDartList, readElements_blank, hl]

/-- The fields of an object. -/
theorem readFields_dumps : ∀ (l : List (List Char × PyJson D)) (n : ℕ) (rest : List Char),
    l ≠ [] → Json.WfFields l → (commaJoin (dumpsFields D l)).length + 1 < n →
      readFields D n (commaJoin (dumpsFields D l) ++ '}' :: rest) =
        some (Json.toDartFields l, rest)
  | [], _, _, hne, _, _ => absurd rfl hne
  | _ :: _, 0, _, _, _, hn => absurd hn (Nat.not_lt_zero _)
  | [(k, v)], n + 1, rest, _, hwf, hn => by
    have hk : readStr (k.flatMap dumpChar ++ '"' :: ':' :: ' ' :: (dumps D v ++ '}' :: rest)) = _ :=
      readStr_dumpStr
    have hv := readValue_dumps v n ('}' :: rest) hwf.1 (by
      rw [dumpsFields_cons, dumpsFields, commaJoin] at hn
      simp only [List.length_cons, List.length_append] at hn
      omega) (stopsNumber_cons (by decide))
    rw [dumpsFields_cons, dumpsFields, commaJoin]
    simp [readFields, hk, hv, jsonBlank, Json.toDartFields, readValue_blank]
  | (k, v) :: (k', w) :: l, n + 1, rest, _, hwf, hn => by
    obtain ⟨z, hz⟩ : ∃ z, dumpsFields D ((k', w) :: l) = z := ⟨_, rfl⟩
    have hlength : (commaJoin (dumpsFields D ((k, v) :: (k', w) :: l))).length =
        (k.flatMap dumpChar).length + 4 + (dumps D v).length + 2 +
          (commaJoin (dumpsFields D ((k', w) :: l))).length := by
      rw [dumpsFields_cons k v, dumpsFields_cons k' w, commaJoin]
      simp only [List.length_append, List.length_cons]
      omega
    have hk : readStr (k.flatMap dumpChar ++ '"' :: ':' :: ' ' ::
      (dumps D v ++ ',' :: ' ' :: (commaJoin (dumpsFields D ((k', w) :: l)) ++ '}' :: rest))) = _ :=
      readStr_dumpStr
    have hv := readValue_dumps v n
      (',' :: ' ' :: (commaJoin (dumpsFields D ((k', w) :: l)) ++ '}' :: rest))
      hwf.1 (by omega) (stopsNumber_cons (by decide))
    have hl := readFields_dumps ((k', w) :: l) n rest (by simp) hwf.2 (by omega)
    have htext : commaJoin (dumpsFields D ((k, v) :: (k', w) :: l)) ++ '}' :: rest =
        '"' :: (k.flatMap dumpChar ++ '"' :: ':' :: ' ' :: (dumps D v ++ ',' :: ' ' ::
          (commaJoin (dumpsFields D ((k', w) :: l)) ++ '}' :: rest))) := by
      rw [dumpsFields_cons k v, dumpsFields_cons k' w, commaJoin]
      simp
    rw [htext, Json.toDartFields]
    simp [readFields, hk, hv, jsonBlank, readValue_blank, readFields_blank, hl]

end

/-- **What Python prints, Dart reads.** -/
theorem jsonDecode_dumps {v : PyJson D} (hwf : v.Wf) : jsonDecode D (dumps D v) = some v.toDart := by
  have hread := readValue_dumps v ((dumps D v).length + 1) [] hwf (Nat.lt_succ_self _) (by
    intro c hc
    cases hc)
  rw [List.append_nil] at hread
  rw [jsonDecode, hread]
  rfl

/-! ## What is printed is printable -/

/-- A printable ASCII character. -/
def IsPrintable (c : Char) : Prop := 32 ≤ c.toNat ∧ c.toNat < 127

instance (c : Char) : Decidable (IsPrintable c) := inferInstanceAs (Decidable (_ ∧ _))

/-- A text of printable ASCII characters. -/
def PrintableText (l : List Char) : Prop := ∀ c ∈ l, IsPrintable c

instance (l : List Char) : Decidable (PrintableText l) :=
  List.decidableBAll IsPrintable l

theorem PrintableText.append {l m : List Char} (hl : PrintableText l) (hm : PrintableText m) :
    PrintableText (l ++ m) := by
  intro c hc
  rcases List.mem_append.mp hc with hc | hc
  · exact hl c hc
  · exact hm c hc

theorem PrintableText.cons {c : Char} {l : List Char} (hc : IsPrintable c) (hl : PrintableText l) :
    PrintableText (c :: l) := by
  intro d hd
  rcases List.mem_cons.mp hd with rfl | hd
  · exact hc
  · exact hl d hd

theorem PrintableText.flatMap {α : Type} {f : α → List Char} {l : List α}
    (h : ∀ x ∈ l, PrintableText (f x)) : PrintableText (l.flatMap f) := by
  intro c hc
  obtain ⟨x, hx, hc⟩ := List.mem_flatMap.mp hc
  exact h x hx c hc

theorem isPrintable_of_isDigit {c : Char} (h : c.isDigit = true) : IsPrintable c := by
  simp only [Char.isDigit, ge_iff_le, Bool.and_eq_true, decide_eq_true_eq] at h
  have h₀ : '0'.toNat ≤ c.toNat := h.1
  have h₁ : c.toNat ≤ '9'.toNat := h.2
  have h₂ : '9'.toNat = 57 ∧ '0'.toNat = 48 := by decide
  unfold IsPrintable
  omega

theorem printable_digits {l : List Char} (h : ∀ c ∈ l, c.isDigit = true) : PrintableText l :=
  fun c hc => isPrintable_of_isDigit (h c hc)

theorem printable_commaJoin {l : List (List Char)} (h : ∀ x ∈ l, PrintableText x) :
    PrintableText (commaJoin l) := by
  induction l with
  | nil => exact nofun
  | cons x l ih =>
    have htail := ih fun y hy => h y (List.mem_cons_of_mem x hy)
    cases l with
    | nil => exact h x List.mem_cons_self
    | cons y l =>
      exact (h x List.mem_cons_self).append (.cons (by decide) (.cons (by decide) htail))

theorem printable_dumpChar (c : Char) : PrintableText (dumpChar c) := by
  have hhex : ∀ d < 16, IsPrintable (hexDigit d) := by decide
  have hmod : ∀ m : ℕ, m % 16 < 16 := fun m => Nat.mod_lt _ (by decide)
  unfold dumpChar
  split
  · rename_i h
    rcases h with rfl | rfl <;> exact .cons (by decide) (.cons (by decide) nofun)
  split
  · exact .cons (by decide) (.cons (by decide) nofun)
  split
  · exact .cons (by decide) (.cons (by decide) nofun)
  split
  · exact .cons (by decide) (.cons (by decide) nofun)
  split
  · exact .cons (by decide) (.cons (by decide) nofun)
  split
  · exact .cons (by decide) (.cons (by decide) nofun)
  split
  · rename_i h
    exact .cons h nofun
  · refine .flatMap fun n _ => ?_
    rw [unicodeEscape, hexText_four]
    exact .cons (by decide) (.cons (by decide) (.cons (hhex _ (hmod _)) (.cons (hhex _ (hmod _))
      (.cons (hhex _ (hmod _)) (.cons (hhex _ (hmod _)) nofun)))))

theorem printable_dumpStr (s : List Char) : PrintableText (dumpStr s) :=
  .cons (by decide) ((PrintableText.flatMap fun c _ => printable_dumpChar c).append
    (.cons (by decide) nofun))

theorem printable_dumpInt (n : ℤ) : PrintableText (dumpInt n) := by
  have hdigits := printable_digits (isWhole_toDigits n.natAbs).2.1
  rw [dumpInt]
  split
  · exact .cons (by decide) hdigits
  · exact hdigits

theorem printable_repr (x : D.Double) : PrintableText (D.repr x) := by
  obtain ⟨sign, whole, fraction, exponent, hrepr, hsign, hwhole, hfraction, hexponent, -⟩ :=
    D.literal x
  have hs : PrintableText sign := by
    rcases hsign with rfl | rfl
    · exact nofun
    · exact .cons (by decide) nofun
  have hf : PrintableText fraction := by
    rcases hfraction with rfl | ⟨digits, rfl, -, hdigits⟩
    · exact nofun
    · exact .cons (by decide) (printable_digits hdigits)
  have he : PrintableText exponent := by
    rcases hexponent with rfl | ⟨e, sign, digits, rfl, he, hsign, -, hdigits⟩
    · exact nofun
    · refine .cons (by rcases he with rfl | rfl <;> decide) (.append ?_ (printable_digits hdigits))
      rcases hsign with rfl | rfl | rfl
      · exact nofun
      · exact .cons (by decide) nofun
      · exact .cons (by decide) nofun
  rw [hrepr]
  exact hs.append ((printable_digits hwhole.2.1).append (hf.append he))

mutual

/-- **Everything printed** is printable ASCII. -/
theorem printable_dumps : ∀ v : PyJson D, PrintableText (dumps D v)
  | .null => by rw [dumps]; decide
  | .bool true => by rw [dumps]; decide
  | .bool false => by rw [dumps]; decide
  | .int n => by rw [dumps]; exact printable_dumpInt n
  | .double x => by rw [dumps]; exact printable_repr x
  | .str s => by rw [dumps]; exact printable_dumpStr s
  | .arr l => by
    rw [dumps]
    exact .cons (by decide)
      ((printable_commaJoin (printable_dumpsList l)).append (.cons (by decide) nofun))
  | .obj l => by
    rw [dumps]
    exact .cons (by decide)
      ((printable_commaJoin (printable_dumpsFields l)).append (.cons (by decide) nofun))

theorem printable_dumpsList : ∀ l : List (PyJson D), ∀ x ∈ dumpsList D l, PrintableText x
  | [], _, hx => by
    rw [dumpsList] at hx
    cases hx
  | v :: l, x, hx => by
    rw [dumpsList] at hx
    rcases List.mem_cons.mp hx with rfl | hx
    · exact printable_dumps v
    · exact printable_dumpsList l x hx

theorem printable_dumpsFields :
    ∀ l : List (List Char × PyJson D), ∀ x ∈ dumpsFields D l, PrintableText x
  | [], _, hx => by
    rw [dumpsFields] at hx
    cases hx
  | (k, v) :: l, x, hx => by
    rw [dumpsFields] at hx
    rcases List.mem_cons.mp hx with rfl | hx
    · exact (printable_dumpStr k).append (.cons (by decide) (.cons (by decide) (printable_dumps v)))
    · exact printable_dumpsFields l x hx

end

end Values

/-- The doubles that are integers, as they print below `10 ^ 16`. -/
def DoubleText.integral : DoubleText where
  Double := ℤ
  repr n := dumpInt n ++ ".0".toList
  parse l :=
    let (sign, l) := readSign ['-'] l
    signedValue sign (l.takeWhile Char.isDigit)
  toText n := dumpInt n ++ ".0".toList
  literal n := by
    refine ⟨if n < 0 then ['-'] else [], Nat.toDigits 10 n.natAbs, ".0".toList, [], ?_, ?_,
      isWhole_toDigits _, .inr ⟨['0'], rfl, by decide, by simp⟩, .inl rfl, .inl (by decide)⟩
    · rw [dumpInt]
      split <;> simp
    · split
      · exact .inr rfl
      · exact .inl rfl
  parse_repr n := by
    obtain ⟨hne, hdigits, -⟩ := isWhole_toDigits n.natAbs
    obtain ⟨c, l, hcons, hc⟩ := (isWhole_toDigits n.natAbs).head
    have htake : (Nat.toDigits 10 n.natAbs ++ ".0".toList).takeWhile Char.isDigit =
        Nat.toDigits 10 n.natAbs := by
      rw [List.takeWhile_append_of_pos hdigits]
      simp
    have hsign : ∀ sign : List Char, sign = [] ∨ sign = ['-'] →
        readSign ['-'] (sign ++ (Nat.toDigits 10 n.natAbs ++ ".0".toList)) =
          (sign, Nat.toDigits 10 n.natAbs ++ ".0".toList) := by
      intro sign hsign
      rw [hcons, List.cons_append]
      refine readSign_append ?_ (not_mem_of_isDigit (by simp) hc)
      rcases hsign with rfl | rfl
      · exact .inl rfl
      · exact .inr ⟨'-', by decide, rfl⟩
    by_cases hn : n < 0
    · have h := hsign ['-'] (.inr rfl)
      rw [List.singleton_append] at h
      simp only [dumpInt, if_pos hn, List.cons_append, h, htake, signedValue, if_true,
        Nat.ofDigitChars_ten_toDigits]
      omega
    · have h := hsign [] (.inl rfl)
      rw [List.nil_append] at h
      simp only [dumpInt, if_neg hn, h, htake, signedValue, Nat.ofDigitChars_ten_toDigits]
      rw [if_neg (by decide)]
      omega

end FinanceIntelligence
