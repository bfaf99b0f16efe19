import FinanceIntelligence.PeriodSafety

/-!
# Lists of canonical periods

A list of canonical references such as *2026/Q1, 2026-Q2 2025-Q4*: how it is written, and which
of its characters stands where. `GoesOn` are the places of a list; every character that is
neither a blank nor a comma stands in a reference at one of them (`exists_goesOn_of_split`), and
there it is a digit, the mark behind the year or the letter (`Reference.folded_split`).
-/

namespace FinanceIntelligence

/-- A quarter of a year. -/
structure CanonicalPeriod where
  year : ℕ
  quarter : ℕ
  /-- years are those that the patterns know -/
  year_mem : 1900 ≤ year ∧ year ≤ 2099
  /-- there are four quarters -/
  quarter_mem : 1 ≤ quarter ∧ quarter ≤ 4

/-- A canonical reference: `YYYY/Qn` or `YYYY-Qn`. -/
structure Reference extends CanonicalPeriod where
  /-- whether it is written with a slash -/
  slash : Bool

/-- What stands between two references. -/
inductive Join where
  | blank
  /-- a comma and a blank -/
  | comma
deriving DecidableEq

/-- The text between two references. -/
def Join.text : Join → List Char
  | .blank => [' ']
  | .comma => [',', ' ']

/-- The key of a canonical period. -/
def CanonicalPeriod.key (period : CanonicalPeriod) : PeriodKey := ⟨period.year, some period.quarter⟩

namespace Reference

/-- The digits of the year. -/
def yearText (r : Reference) : List Char := (toString r.year).toList

/-- What stands behind the year. -/
def mark (r : Reference) : Char := if r.slash then '/' else '-'

/-- The digit of the quarter. -/
def quarterChar (r : Reference) : Char := Nat.digitChar r.quarter

/-- The reference as it is written. -/
def text (r : Reference) : List Char := r.yearText ++ [r.mark, 'Q', r.quarterChar]

/-- The reference as it is searched. -/
def folded (r : Reference) : List Char := r.yearText ++ [r.mark, 'q', r.quarterChar]

end Reference

/-- What follows the first reference of a list. -/
def behind (text : Reference → List Char) (rest : List (Join × Reference)) : List Char :=
  rest.flatMap fun (join, r) => join.text ++ text r

/-- The text of a list. -/
def joined (text : Reference → List Char) (first : Reference) (rest : List (Join × Reference)) :
    List Char :=
  text first ++ behind text rest

/-- The keys of a list. -/
def listed (first : Reference) (rest : List (Join × Reference)) : List PeriodKey :=
  (first :: rest.map (·.2)).map fun r => r.key

/-- What a blank joins: the quarter before it and the year behind it. -/
def crossings (first : Reference) : List (Join × Reference) → List PeriodKey
  | [] => []
  | (.blank, r) :: rest => ⟨r.year, some first.quarter⟩ :: crossings r rest
  | (.comma, r) :: rest => crossings r rest

/-! ## Years and quarters -/

namespace PeriodExpression

variable {R : PeriodText}

/-- The value of ASCII digits. -/
def asciiInt (digits : List Char) : ℕ := digits.foldl (fun n c => 10 * n + (c.toNat - '0'.toNat)) 0

theorem isDigit_ascii {c : Char} (hlow : c.toNat < 128) : R.isDigit c = c.isDigit := by
  rw [PeriodText.isDigit, (R.ascii c hlow).2.1]
  cases h : c.isDigit <;> simp [CharClass.ascii, h]

theorem toNat_lt_of_digit {c : Char} (h : c.isDigit = true) : c.toNat < 128 := by
  have hvalue : '9'.toNat = 57 := by decide
  have := (Char.isDigit_iff_toNat.mp h).2
  omega

theorem int_eq_asciiInt {digits : List Char} (h : ∀ c ∈ digits, c.isDigit = true) :
    R.int digits = asciiInt digits := by
  rw [PeriodText.int, asciiInt]
  refine List.foldl_ext _ _ 0 fun n c hc => ?_
  rw [(R.ascii c (toNat_lt_of_digit (h c hc))).2.1]
  simp [CharClass.ascii, h c hc]

end PeriodExpression

namespace Reference

open PeriodExpression

variable {R : PeriodText} (r : Reference)

theorem yearText_facts : (r.yearText.length = 4 ∧ r.yearText.all Char.isDigit = true ∧
    (r.yearText.take 2 = ['1', '9'] ∨ r.yearText.take 2 = ['2', '0'])) ∧
      asciiInt r.yearText = r.year := by
  have hall : ∀ n < 200, ((toString (1900 + n)).toList.length = 4 ∧
      (toString (1900 + n)).toList.all Char.isDigit = true ∧
      ((toString (1900 + n)).toList.take 2 = ['1', '9'] ∨
        (toString (1900 + n)).toList.take 2 = ['2', '0'])) ∧
      asciiInt (toString (1900 + n)).toList = 1900 + n := by
    decide +kernel
  have hyear := hall (r.year - 1900) (by have := r.year_mem; omega)
  rwa [Nat.add_sub_cancel' r.year_mem.1] at hyear

theorem isDigit_yearText {c : Char} (hc : c ∈ r.yearText) : c.isDigit = true :=
  List.all_eq_true.mp r.yearText_facts.1.2.1 c hc

theorem isYear : IsYear R r.yearText := by
  obtain ⟨⟨hlength, hall, htake⟩, -⟩ := r.yearText_facts
  obtain ⟨a, b, c, d, hyear⟩ := List.length_eq_four.mp hlength
  rw [hyear] at hall htake
  simp only [List.all_cons, List.all_nil, Bool.and_true, Bool.and_eq_true] at hall
  have hdigit : ∀ {c : Char}, c.isDigit = true → R.isDigit c = true :=
    fun h => isDigit_of_ascii h (toNat_lt_of_digit h)
  refine ⟨c, d, ?_, hdigit hall.2.2.1, hdigit hall.2.2.2⟩
  rw [hyear]
  simpa using htake

theorem int_yearText : R.int r.yearText = r.year := by
  rw [int_eq_asciiInt fun _ => r.isDigit_yearText]
  exact r.yearText_facts.2

theorem quarterChar_facts : r.quarterChar.isDigit = true ∧ quarterDigit r.quarterChar = true ∧
    asciiInt [r.quarterChar] = r.quarter := by
  have hall : ∀ n < 4, (Nat.digitChar (1 + n)).isDigit = true ∧
      quarterDigit (Nat.digitChar (1 + n)) = true ∧
      asciiInt [Nat.digitChar (1 + n)] = 1 + n := by decide +kernel
  have hquarter := hall (r.quarter - 1) (by have := r.quarter_mem; omega)
  rwa [Nat.add_sub_cancel' r.quarter_mem.1] at hquarter

theorem int_quarterChar : R.int [r.quarterChar] = r.quarter := by
  rw [int_eq_asciiInt (by simpa using r.quarterChar_facts.1)]
  exact r.quarterChar_facts.2.2

theorem isDigit_of_mem_yearText {c : Char} (hc : c ∈ r.yearText) : R.isDigit c = true :=
  (r.isYear (R := R)).digits c hc

theorem isDigit_quarterChar : R.isDigit r.quarterChar = true :=
  isDigit_of_ascii r.quarterChar_facts.1 (toNat_lt_of_digit r.quarterChar_facts.1)

theorem length_yearText : r.yearText.length = 4 := r.yearText_facts.1.1

theorem mark_mem : r.mark = '/' ∨ r.mark = '-' := by
  rw [mark]
  split
  exacts [.inl rfl, .inr rfl]

/-- What is no digit in a reference is its mark or the letter. -/
theorem folded_split {s t : List Char} {c : Char} (h : r.folded = s ++ c :: t)
    (hc : c.isDigit = false) :
    (s = r.yearText ∧ c = r.mark ∧ t = ['q', r.quarterChar]) ∨
      (s = r.yearText ++ [r.mark] ∧ c = 'q' ∧ t = [r.quarterChar]) := by
  rw [folded] at h
  have hdigit : c.isDigit = true → False := by simp [hc]
  rcases List.append_eq_append_iff.mp h with ⟨u, rfl, hu⟩ | ⟨u, hyear, hu⟩
  · match u, hu with
    | [], hu => exact .inl (by simpa [eq_comm] using hu)
    | [d], hu => exact .inr (by simpa [eq_comm] using hu)
    | [d, e], hu =>
      obtain ⟨-, hu⟩ := List.cons.inj hu
      obtain ⟨-, hu⟩ := List.cons.inj hu
      obtain ⟨rfl, -⟩ := List.cons.inj hu
      exact (hdigit r.quarterChar_facts.1).elim
    | d :: e :: f :: u, hu => simp at hu
  · cases u with
    | nil => exact .inl (by simpa [hyear, eq_comm] using hu)
    | cons d u =>
      obtain ⟨rfl, -⟩ := List.cons.inj hu
      exact (hdigit (r.isDigit_yearText (by rw [hyear]; simp))).elim

end Reference

/-! ## Places of a list -/

/-- The list goes on with a reference and what follows it. -/
inductive GoesOn : Reference → List (Join × Reference) → Reference → List (Join × Reference) → Prop
  /-- where it is -/
  | here (first rest) : GoesOn first rest first rest
  /-- further on -/
  | next {join first r rest s rest'} (h : GoesOn r rest s rest') :
    GoesOn first ((join, r) :: rest) s rest'

section Places

variable {first r : Reference} {rest rest' : List (Join × Reference)} {key : PeriodKey}

theorem GoesOn.mem (h : GoesOn first rest r rest') : r.key ∈ listed first rest := by
  induction h with
  | here => exact List.mem_cons_self
  | next _ ih => exact List.mem_cons_of_mem _ ih

theorem exists_goesOn_of_mem (h : key ∈ listed first rest) :
    ∃ r rest', GoesOn first rest r rest' ∧ key = r.key := by
  induction rest generalizing first with
  | nil => exact ⟨first, [], .here .., by simpa [listed] using h⟩
  | cons head rest ih =>
    rcases List.mem_cons.mp h with rfl | h
    · exact ⟨first, _, .here .., rfl⟩
    · obtain ⟨r, rest', hgoes, rfl⟩ := ih h
      exact ⟨r, rest', .next hgoes, rfl⟩

theorem mem_crossings_iff : key ∈ crossings first rest ↔ ∃ r r' rest',
    GoesOn first rest r ((.blank, r') :: rest') ∧ key = ⟨r'.year, some r.quarter⟩ := by
  constructor
  · intro h
    induction rest generalizing first with
    | nil => exact absurd h List.not_mem_nil
    | cons head rest ih =>
      obtain ⟨join, r⟩ := head
      cases join with
      | blank =>
        rcases List.mem_cons.mp h with rfl | h
        · exact ⟨first, r, rest, .here .., rfl⟩
        · obtain ⟨s, s', rest', hgoes, rfl⟩ := ih h
          exact ⟨s, s', rest', .next hgoes, rfl⟩
      | comma =>
        obtain ⟨s, s', rest', hgoes, rfl⟩ := ih h
        exact ⟨s, s', rest', .next hgoes, rfl⟩
  · rintro ⟨s, s', rest', hgoes, rfl⟩
    generalize hbehind : (Join.blank, s') :: rest' = after at hgoes
    induction hgoes with
    | here first rest =>
      subst hbehind
      exact List.mem_cons_self
    | @next join _ _ _ _ _ _ ih =>
      cases join with
      | blank => exact List.mem_cons_of_mem _ (ih hbehind)
      | comma => exact ih hbehind

theorem behind_cons (text : Reference → List Char) (join : Join) :
    behind text ((join, r) :: rest) = join.text ++ joined text r rest := by
  rw [behind, List.flatMap_cons, joined, behind, List.append_assoc]

/-- The text of a place. -/
theorem GoesOn.text (h : GoesOn first rest r rest') (text : Reference → List Char) :
    ∃ before, joined text first rest = before ++ joined text r rest' ∧
      (before = [] ∨ before.getLast? = some ' ') := by
  induction h with
  | here => exact ⟨[], rfl, .inl rfl⟩
  | @next join first r rest s rest' h ih =>
    obtain ⟨before, htext, hbefore⟩ := ih
    refine ⟨text first ++ (join.text ++ before), ?_, .inr ?_⟩
    · rw [joined, behind_cons, htext]
      simp only [List.append_assoc]
    · rcases hbefore with rfl | hlast
      · rw [List.append_nil]
        cases join <;> simp [Join.text]
      · simp [hlast]

/-- A character that stands in no join stands in a reference. -/
theorem exists_goesOn_of_split {a b : List Char} {c : Char} (hblank : c ≠ ' ') (hcomma : c ≠ ',')
    (h : joined Reference.folded first rest = a ++ c :: b) :
    ∃ r rest' before s t, GoesOn first rest r rest' ∧ r.folded = s ++ c :: t ∧ a = before ++ s ∧
      b = t ++ behind Reference.folded rest' := by
  have hjoin : ∀ {join : Join} {s t : List Char}, join.text ≠ s ++ c :: t := by
    rintro join s t hjoin
    have hmem : c ∈ join.text := by
      rw [hjoin]
      simp
    cases join
    · exact hblank (by simpa [Join.text] using hmem)
    · rcases List.mem_cons.mp hmem with rfl | hmem
      exacts [hcomma rfl, hblank (List.mem_singleton.mp hmem)]
  induction rest generalizing first a with
  | nil =>
    exact ⟨first, [], [], a, b, .here .., by simpa [joined, behind] using h, rfl, by simp [behind]⟩
  | cons head rest ih =>
    obtain ⟨join, r⟩ := head
    rw [joined, behind_cons] at h
    rcases List.append_eq_append_iff.mp h with ⟨a', rfl, ha'⟩ | ⟨u, hfirst, hu⟩
    · rcases List.append_eq_append_iff.mp ha' with ⟨a'', rfl, ha''⟩ | ⟨u, hu, hrest⟩
      · obtain ⟨s, rest', before, s', t, hgoes, hs, rfl, hb⟩ := ih ha''
        exact ⟨s, rest', first.folded ++ (join.text ++ before), s', t, .next hgoes, hs,
          by simp only [List.append_assoc], hb⟩
      · cases u with
        | nil =>
          obtain ⟨s, rest', before, s', t, hgoes, hs, hnil, hb⟩ := ih (a := []) hrest.symm
          obtain ⟨rfl, rfl⟩ := List.append_eq_nil_iff.mp hnil.symm
          exact ⟨s, rest', first.folded ++ a', [], t, .next hgoes, hs, (List.append_nil _).symm, hb⟩
        | cons d u =>
          obtain ⟨rfl, -⟩ := List.cons.inj hrest
          exact absurd hu hjoin
    · cases u with
      | nil =>
        -- a join starts with a blank or a comma
        have hstart : (join.text ++ joined Reference.folded r rest).head? = some c := by
          rw [← List.nil_append (join.text ++ _), ← hu]
          rfl
        cases join
        · exact absurd (Option.some.inj hstart).symm hblank
        · exact absurd (Option.some.inj hstart).symm hcomma
      | cons d u =>
        obtain ⟨rfl, hb⟩ := List.cons.inj hu
        exact ⟨first, _, [], a, u, .here .., hfirst, rfl, by rw [behind_cons]; exact hb⟩

end Places

end FinanceIntelligence
