import FinanceIntelligence.Regex
import Mathlib.Data.List.Infix

/-!
# Texts of Python values

A general layer: `str` and `repr` of plain data, and where a piece without
delimiters occurs in them. A piece that has no blank, no bracket and no comma at
its end occurs in the text of a list or a dictionary when it occurs in the text of
one of the elements.
-/

namespace FinanceIntelligence

/-- A classification of characters that also knows the printable ones. -/
structure TextClass extends CharClass where
  /-- `str.isprintable` of one character -/
  printable : Char → Bool
  /-- the ASCII digits are `0` to `9` -/
  digit_ascii : ∀ c : Char, (digit c).isSome → c.toNat < 128 → '0' ≤ c ∧ c ≤ '9'
  /-- digits are printable -/
  printable_of_digit : ∀ c, (digit c).isSome → printable c = true
  /-- the printable ASCII characters -/
  printable_ascii : ∀ c : Char, c.toNat < 128 → printable c = (32 ≤ c.toNat && c.toNat < 127)

section Ascii

variable {c : Char}

/-- A digit in ASCII is one of ten. -/
theorem isDigit_of_ascii_digit (h : (CharClass.ascii.digit c).isSome) : '0' ≤ c ∧ c ≤ '9' := by
  have hc : c.isDigit = true := by
    by_contra hc
    simp [CharClass.ascii, hc] at h
  simp only [Char.isDigit, ge_iff_le, Bool.and_eq_true, decide_eq_true_eq] at hc
  exact hc

theorem printable_of_ascii_digit (h : (CharClass.ascii.digit c).isSome) :
    (decide (32 ≤ c.toNat) && decide (c.toNat < 127)) = true := by
  have hc := isDigit_of_ascii_digit h
  have h₀ : '0'.toNat ≤ c.toNat := hc.1
  have h₁ : c.toNat ≤ '9'.toNat := hc.2
  have h₂ : '9'.toNat = 57 ∧ '0'.toNat = 48 := by decide
  simp only [Bool.and_eq_true, decide_eq_true_eq]
  omega

end Ascii

/-- The classification of the ASCII characters. -/
def TextClass.ascii : TextClass where
  toCharClass := CharClass.ascii
  printable c := 32 ≤ c.toNat && c.toNat < 127
  digit_ascii _ h _ := isDigit_of_ascii_digit h
  printable_of_digit _ h := printable_of_ascii_digit h
  printable_ascii _ _ := rfl

/-- Plain Python data. -/
inductive PyValue where
  | none
  /-- `True` or `False` -/
  | bool (b : Bool)
  /-- a number or another object, by its `repr`, its `str` and its truth -/
  | other (repr str : List Char) (truthy : Bool)
  /-- a string -/
  | str (s : List Char)
  | list (l : List PyValue)
  /-- a dictionary with strings as keys, in insertion order -/
  | dict (l : List (List Char × PyValue))

/-- A dictionary. -/
abbrev PyDict := List (List Char × PyValue)

/-- `", ".join(l)`. -/
def commaJoin : List (List Char) → List Char
  | [] => []
  | [x] => x
  | x :: y :: l => x ++ ',' :: ' ' :: commaJoin (y :: l)

/-- A lower-case hexadecimal digit. -/
def hexDigit (n : ℕ) : Char := (Nat.digitChar n).toLower

/-- The last `w` hexadecimal digits of a number. -/
def hexText : ℕ → ℕ → List Char
  | 0, _ => []
  | w + 1, n => hexText w (n / 16) ++ [hexDigit (n % 16)]

section Repr

variable (U : TextClass)

/-- A character in the `repr` of a string that is quoted with `q`. -/
def reprChar (q c : Char) : List Char :=
  if c = '\\' ∨ c = q then ['\\', c]
  else if c = '\n' then ['\\', 'n']
  else if c = '\r' then ['\\', 'r']
  else if c = '\t' then ['\\', 't']
  else if U.printable c then [c]
  else if c.toNat < 256 then '\\' :: 'x' :: hexText 2 c.toNat
  else if c.toNat < 65536 then '\\' :: 'u' :: hexText 4 c.toNat
  else '\\' :: 'U' :: hexText 8 c.toNat

/-- `repr` of a string. -/
def reprStr (s : List Char) : List Char :=
  let q := if '\'' ∈ s ∧ '"' ∉ s then '"' else '\''
  q :: (s.flatMap (reprChar U q) ++ [q])

mutual

/-- `repr`. -/
def PyValue.repr : PyValue → List Char
  | .none => "None".toList
  | .bool b => if b then "True".toList else "False".toList
  | .other r _ _ => r
  | .str s => reprStr U s
  | .list l => '[' :: (commaJoin (PyValue.reprs l) ++ [']'])
  | .dict l => '{' :: (commaJoin (PyValue.fieldReprs l) ++ ['}'])

/-- The elements of a list. -/
def PyValue.reprs : List PyValue → List (List Char)
  | [] => []
  | v :: l => v.repr :: PyValue.reprs l

/-- The fields of a dictionary. -/
def PyValue.fieldReprs : List (List Char × PyValue) → List (List Char)
  | [] => []
  | (k, v) :: l => (reprStr U k ++ ':' :: ' ' :: v.repr) :: PyValue.fieldReprs l

end

/-- `str`. -/
def PyValue.toStr : PyValue → List Char
  | .str s => s
  | .other _ s _ => s
  | v => v.repr U

/-- The value counts as true. -/
def PyValue.truthy : PyValue → Bool
  | .none => false
  | .bool b => b
  | .other _ _ t => t
  | .str s => !s.isEmpty
  | .list l => !l.isEmpty
  | .dict l => !l.isEmpty

/-- `d.get(key)`. -/
def PyDict.get (d : PyDict) (key : String) : Option PyValue :=
  (d.find? fun (k, _) => k == key.toList).map (·.2)

variable {U}

@[simp] theorem PyValue.reprs_eq (l : List PyValue) :
    PyValue.reprs U l = l.map (PyValue.repr U) := by
  induction l with
  | nil => rfl
  | cons v l ih => rw [PyValue.reprs, ih, List.map_cons]

/-- A field of a dictionary. -/
abbrev fieldRepr (U : TextClass) (f : List Char × PyValue) : List Char :=
  reprStr U f.1 ++ ':' :: ' ' :: f.2.repr U

@[simp] theorem PyValue.fieldReprs_eq (l : List (List Char × PyValue)) :
    PyValue.fieldReprs U l = l.map (fieldRepr U) := by
  induction l with
  | nil => rfl
  | cons f l ih => rw [PyValue.fieldReprs, ih, List.map_cons]

end Repr

/-! ## Pieces of a text -/

section Pieces

variable {t x y : List Char} {c : Char}

/-- A piece without a character lies on one side of it. -/
theorem infix_append_cons (hc : c ∉ t) : t <:+: x ++ c :: y ↔ t <:+: x ∨ t <:+: y := by
  refine ⟨fun ⟨a, b, h⟩ => ?_, ?_⟩
  · rw [List.append_assoc] at h
    rcases List.append_eq_append_iff.mp h with ⟨z, rfl, hz⟩ | ⟨z, rfl, hz⟩
    · -- the piece begins in `x`
      rcases List.append_eq_append_iff.mp hz with ⟨u, rfl, hu⟩ | ⟨u, hu, hu'⟩
      · exact .inl ⟨a, u, by simp⟩
      · cases u with
        | nil => exact .inl ⟨a, [], by simp_all⟩
        | cons d u =>
          obtain ⟨rfl, -⟩ : c = d ∧ _ := by simpa using hu'
          exact absurd (by rw [hu]; simp) hc
    · cases z with
      | nil =>
        cases t with
        | nil => exact .inl (List.nil_infix)
        | cons d t =>
          obtain ⟨rfl, -⟩ : c = d ∧ _ := by simpa using hz
          exact absurd List.mem_cons_self hc
      | cons d z =>
        obtain ⟨rfl, rfl⟩ : c = d ∧ y = z ++ (t ++ b) := by simpa using hz
        exact .inr ⟨z, b, by simp⟩
  · rintro (h | h)
    · exact h.trans ⟨[], c :: y, by simp⟩
    · exact h.trans ⟨x ++ [c], [], by simp⟩

/-- A piece that does not end in a character lies before it. -/
theorem infix_concat (hc : ∀ d ∈ t.getLast?, d ≠ c) : t <:+: x ++ [c] ↔ t <:+: x := by
  refine ⟨fun ⟨a, b, h⟩ => ?_, fun h => h.trans ⟨[], [c], by simp⟩⟩
  rcases List.eq_nil_or_concat b with rfl | ⟨b, d, rfl⟩
  · rcases List.eq_nil_or_concat t with rfl | ⟨t, e, rfl⟩
    · exact List.nil_infix
    · have h' : (a ++ t) ++ [e] = x ++ [c] := by simpa using h
      have := (List.append_inj' h' rfl).2
      exact absurd (List.singleton_inj.mp this) (hc e (by simp))
  · have h' : (a ++ t ++ b) ++ [d] = x ++ [c] := by simpa using h
    exact ⟨a, b, (List.append_inj' h' rfl).1⟩

/-- A piece without delimiters. -/
structure Undelimited (t : List Char) : Prop where
  /-- it is not empty -/
  ne_nil : t ≠ []
  /-- no blank -/
  blank : ' ' ∉ t
  /-- no bracket -/
  brackets : '[' ∉ t ∧ ']' ∉ t ∧ '{' ∉ t ∧ '}' ∉ t
  /-- no comma at its end -/
  last : ∀ d ∈ t.getLast?, d ≠ ','

/-- It lies in one of the texts that are joined. -/
theorem Undelimited.infix_commaJoin (h : Undelimited t) (l : List (List Char)) :
    t <:+: commaJoin l ↔ ∃ x ∈ l, t <:+: x := by
  induction l with
  | nil => simp [commaJoin, h.ne_nil]
  | cons x l ih =>
    cases l with
    | nil => simp [commaJoin]
    | cons y l =>
      have hsplit : commaJoin (x :: y :: l) = (x ++ [',']) ++ ' ' :: commaJoin (y :: l) := by
        simp [commaJoin]
      rw [hsplit, infix_append_cons h.blank, infix_concat h.last, ih]
      simp

theorem infix_bracketed {o c : Char} (ht : t ≠ []) (ho : o ∉ t) (hc : c ∉ t) :
    t <:+: o :: (x ++ [c]) ↔ t <:+: x := by
  have hopen := infix_append_cons (x := []) (y := x ++ [c]) ho
  have hclose := infix_append_cons (x := x) (y := []) hc
  simp only [List.nil_append, List.infix_nil, ht, false_or, or_false] at hopen hclose
  rw [hopen, hclose]

variable {U : TextClass}

/-- It lies in one of the elements. -/
theorem Undelimited.infix_list (h : Undelimited t) (l : List PyValue) :
    t <:+: (PyValue.list l).repr U ↔ ∃ v ∈ l, t <:+: v.repr U := by
  rw [PyValue.repr, infix_bracketed h.ne_nil h.brackets.1 h.brackets.2.1, h.infix_commaJoin,
    PyValue.reprs_eq]
  simp

/-- It lies in one of the fields. -/
theorem Undelimited.infix_dict (h : Undelimited t) (l : PyDict) :
    t <:+: (PyValue.dict l).repr U ↔ ∃ f ∈ l, t <:+: fieldRepr U f := by
  rw [PyValue.repr, infix_bracketed h.ne_nil h.brackets.2.2.1 h.brackets.2.2.2, h.infix_commaJoin,
    PyValue.fieldReprs_eq]
  simp

/-- It lies in the key or in the value. -/
theorem Undelimited.infix_field (h : Undelimited t) (f : List Char × PyValue) :
    t <:+: fieldRepr U f ↔ t <:+: reprStr U f.1 ++ [':'] ∨ t <:+: f.2.repr U := by
  have hsplit : fieldRepr U f = (reprStr U f.1 ++ [':']) ++ ' ' :: f.2.repr U := by
    simp [fieldRepr]
  rw [hsplit, infix_append_cons h.blank]

/-- A string whose characters stand for themselves contains its own text. -/
theorem infix_reprStr {s : List Char}
    (hs : ∀ c ∈ s, U.printable c = true ∧ c ≠ '\\' ∧ c ≠ '\'') : s <:+: reprStr U s := by
  have hq : ¬ ('\'' ∈ s ∧ '"' ∉ s) := fun h => (hs _ h.1).2.2 rfl
  have hself : s.flatMap (reprChar U '\'') = s := by
    have : ∀ c ∈ s, reprChar U '\'' c = [c] := by
      intro c hc
      obtain ⟨hp, hb, hquote⟩ := hs c hc
      have hcontrol : c ≠ '\n' ∧ c ≠ '\r' ∧ c ≠ '\t' := by
        refine ⟨?_, ?_, ?_⟩ <;>
        · rintro rfl
          rw [U.printable_ascii _ (by decide)] at hp
          exact absurd hp (by decide)
      simp [reprChar, hb, hquote, hcontrol, hp]
    rw [List.flatMap_congr this]
    exact List.flatMap_singleton' s
  rw [reprStr, if_neg hq, hself]
  exact ⟨['\''], ['\''], by simp⟩

end Pieces

end FinanceIntelligence
