import FinanceIntelligence.NumberParsing
import FinanceIntelligence.Words
import Mathlib.Data.List.Sort

/-!
# The lines that a question names

`resolve_metric_codes` (metric_resolution.py) compares a question with the catalog: the
texts are folded to words with single blanks between them, and a row of the catalog counts
if its code, its name or its name without suffixes is part of the folded question. The
longest name comes first, so that it is preferred over a shorter one inside it.

* `mem_resolveMetricCodes` — a code is returned if one of its rows **is found**, whatever
  comes before it in the order;
* `mem_resolveMetricCodes_of_named` — what the question **names** is returned: whole words, at
  a place that no longer name covers;
* `resolvesWhatIsNamed_iff` — **nothing else** is returned exactly if no row is found only
  inside words or inside a longer name;
* `resolveMetricCodes_adds` — both happen: `Kar` in *karşılaştır*, and interest income where
  the question has net interest income.
-/

namespace FinanceIntelligence

namespace MetricResolution

/-- `_SUFFIXES`. -/
def suffixes : List (List Char) :=
  ["larının", "lerinin", "ları", "leri", "sının", "sinin", "ının", "inin", "unun", "ünün", "nın",
    "nin", "nun", "nün", "ları", "leri", "sı", "si", "su", "sü", "ı", "i", "u", "ü"].map
      String.toList

/-- `[0-9a-zçğıöşü]`. -/
def foldLetter (c : Char) : Bool :=
  ('0' ≤ c && c ≤ '9') || ('a' ≤ c && c ≤ 'z') || ['ç', 'ğ', 'ı', 'ö', 'ş', 'ü'].contains c

variable (caseFold : Char → List Char)

/-- `_fold`; `str.casefold` goes character by character, and after the substitution a blank is
the only character that is stripped. -/
def fold (text : List Char) : List Char :=
  strip .ascii (squash foldLetter ' ' false (text.flatMap caseFold))

/-- `str.split` of a folded text. -/
def split (folded : List Char) : List (List Char) :=
  words (fun c => !CharClass.ascii.space c) folded

/-- `_stem`. -/
def stem (word : List Char) : List Char :=
  match suffixes.find? fun suffix => suffix.length + 2 < word.length ∧ suffix <:+ word with
  | some suffix => word.take (word.length - suffix.length)
  | none => word

/-- `_stemmed`. -/
def stemmed (text : List Char) : List Char :=
  joinWords ' ' ((split (fold caseFold text)).map stem)

/-- A row of the catalog: `metric_code` and `canonical_name`, empty where there is none. -/
abbrev Row := List Char × List Char

/-- The tests of one row. -/
def isFound (prompt : List Char) (row : Row) : Bool :=
  fold caseFold row.1 <:+: fold caseFold prompt ||
    (row.2 ≠ [] && (fold caseFold row.2 <:+: fold caseFold prompt ||
      stemmed caseFold row.2 <:+: stemmed caseFold prompt))

/-- `resolve_metric_codes`. -/
def resolveMetricCodes (prompt : List Char) (catalog : List Row) : List (List Char) :=
  if prompt = [] ∨ catalog = [] then []
  else
    (catalog.insertionSort fun row row' => row'.2.length ≤ row.2.length).foldl
      (fun resolved row =>
        if row.1 ∈ resolved then resolved
        else if isFound caseFold prompt row then resolved ++ [row.1] else resolved) []

variable {caseFold} {prompt : List Char} {catalog : List Row} {code : List Char}

/-- **A code is returned** if one of its rows is found. -/
theorem mem_resolveMetricCodes :
    code ∈ resolveMetricCodes caseFold prompt catalog ↔
      prompt ≠ [] ∧ ∃ row ∈ catalog, row.1 = code ∧ isFound caseFold prompt row = true := by
  have hloop : ∀ (rows : List Row) (resolved : List (List Char)),
      code ∈ rows.foldl (fun resolved row =>
        if row.1 ∈ resolved then resolved
        else if isFound caseFold prompt row then resolved ++ [row.1] else resolved) resolved ↔
      code ∈ resolved ∨ ∃ row ∈ rows, row.1 = code ∧ isFound caseFold prompt row = true := by
    intro rows
    induction rows with
    | nil => simp
    | cons row rows ih =>
      intro resolved
      rw [List.foldl_cons, ih]
      simp only [List.exists_mem_cons_iff]
      split
      · rename_i hold
        constructor
        · exact Or.imp_right .inr
        · rintro (h | ⟨rfl, -⟩ | h)
          exacts [.inl h, .inl hold, .inr h]
      · split
        · rename_i hfound
          simp only [List.mem_append, List.mem_singleton, hfound, and_true, or_assoc, eq_comm]
        · rename_i hfound
          simp [hfound]
  rw [resolveMetricCodes]
  split
  · rename_i hempty
    refine iff_of_false List.not_mem_nil ?_
    rintro ⟨hprompt, row, hrow, -⟩
    rcases hempty with h | rfl
    exacts [hprompt h, List.not_mem_nil hrow]
  · rename_i hne
    rw [hloop]
    simp only [List.not_mem_nil, false_or, List.mem_insertionSort]
    exact ⟨fun h => ⟨fun hp => hne (.inl hp), h⟩, And.right⟩

/-! ## Words of a text -/

theorem space_of_foldLetter {c : Char} (hc : foldLetter c = true) :
    CharClass.ascii.space c = false := by
  have hlow : '0'.toNat ≤ c.toNat := by
    simp only [foldLetter, Bool.or_eq_true, Bool.and_eq_true, decide_eq_true_eq] at hc
    rcases hc with (⟨h, -⟩ | ⟨h, -⟩) | h
    · exact h
    · exact (show '0'.toNat ≤ 'a'.toNat by decide).trans h
    · simp only [List.contains_iff_mem, List.mem_cons, List.not_mem_nil, or_false] at h
      rcases h with rfl | rfl | rfl | rfl | rfl | rfl <;> decide
  have hzero : '0'.toNat = 48 := by decide
  simp only [CharClass.ascii, Bool.or_eq_false_iff, Bool.and_eq_false_iff, decide_eq_false_iff_not]
  refine ⟨⟨?_, by omega⟩, by omega⟩
  rw [beq_eq_false_iff_ne]
  rintro rfl
  exact absurd hlow (by decide)

/-- The words of a text, folded. -/
def wordsOf (caseFold : Char → List Char) (text : List Char) : List (List Char) :=
  words foldLetter (text.flatMap caseFold)

theorem fold_eq (text : List Char) : fold caseFold text = joinWords ' ' (wordsOf caseFold text) :=
  trimEnds_squash (by decide) (fun _ => space_of_foldLetter) _

theorem split_fold (text : List Char) : split (fold caseFold text) = wordsOf caseFold text := by
  rw [fold_eq, split]
  refine words_joinWords (by decide) fun w hw => ?_
  obtain ⟨hne, hletters⟩ := areWords_words _ _ w hw
  exact ⟨hne, fun c hc => by simp [space_of_foldLetter (hletters c hc)]⟩

theorem stemmed_eq (text : List Char) :
    stemmed caseFold text = joinWords ' ' ((wordsOf caseFold text).map stem) := by
  rw [stemmed, split_fold]

/-! ## What a question names -/

/-- The words stand in the text, from the `i`-th of its words on. -/
def StandsAt (part text : List (List Char)) (i : ℕ) : Prop := part ≠ [] ∧ part <+: text.drop i

instance (part text : List (List Char)) (i : ℕ) : Decidable (StandsAt part text i) := by
  unfold StandsAt
  infer_instance

theorem StandsAt.infix {part text : List (List Char)} {i : ℕ} (h : StandsAt part text i) :
    part <:+: text :=
  h.2.isInfix.trans (List.drop_suffix i text).isInfix

/-- The code of a row stands in the question. -/
def CodeAt (caseFold : Char → List Char) (prompt : List Char) (row : Row) (i : ℕ) : Prop :=
  StandsAt (wordsOf caseFold row.1) (wordsOf caseFold prompt) i

/-- The name of a row stands in the question, or all but the suffixes does. -/
def NameAt (caseFold : Char → List Char) (prompt : List Char) (row : Row) (i : ℕ) : Prop :=
  StandsAt (wordsOf caseFold row.2) (wordsOf caseFold prompt) i ∨
    StandsAt ((wordsOf caseFold row.2).map stem) ((wordsOf caseFold prompt).map stem) i

/-- `k` words of the question from the `i`-th on are strictly inside a name of the catalog. -/
def Covered (caseFold : Char → List Char) (prompt : List Char) (catalog : List Row) (i k : ℕ) :
    Prop :=
  ∃ row ∈ catalog, k < (wordsOf caseFold row.2).length ∧
    ∃ j ≤ i, i + k ≤ j + (wordsOf caseFold row.2).length ∧ NameAt caseFold prompt row j

/-- **The question names the code**: the code or the name of a row stands in it as whole words,
at a place that is not strictly inside a longer name that stands there. -/
def Named (caseFold : Char → List Char) (prompt : List Char) (catalog : List Row)
    (code : List Char) : Prop :=
  ∃ row ∈ catalog, row.1 = code ∧ ∃ i < (wordsOf caseFold prompt).length,
    (CodeAt caseFold prompt row i ∧
        ¬ Covered caseFold prompt catalog i (wordsOf caseFold row.1).length) ∨
      (NameAt caseFold prompt row i ∧
        ¬ Covered caseFold prompt catalog i (wordsOf caseFold row.2).length)

instance : Decidable (Named caseFold prompt catalog code) := by
  unfold Named CodeAt Covered NameAt
  infer_instance

theorem CodeAt.isFound {row : Row} {i : ℕ} (h : CodeAt caseFold prompt row i) :
    isFound caseFold prompt row = true := by
  have hfold := joinWords_infix ' ' h.1 h.infix
  rw [← fold_eq, ← fold_eq] at hfold
  simp [MetricResolution.isFound, hfold]

theorem NameAt.isFound {row : Row} {i : ℕ} (h : NameAt caseFold prompt row i) :
    isFound caseFold prompt row = true := by
  have hname : row.2 ≠ [] := by
    intro hnil
    rcases h with h | h
    · exact h.1 (by rw [hnil]; rfl)
    · exact h.1 (by rw [hnil]; rfl)
  rcases h with h | h
  · have hfold := joinWords_infix ' ' h.1 h.infix
    rw [← fold_eq, ← fold_eq] at hfold
    simp [MetricResolution.isFound, hfold, hname]
  · have hstem := joinWords_infix ' ' h.1 h.infix
    rw [← stemmed_eq, ← stemmed_eq] at hstem
    simp [MetricResolution.isFound, hstem, hname]

/-- **What is named is returned.** -/
theorem mem_resolveMetricCodes_of_named (h : Named caseFold prompt catalog code) :
    code ∈ resolveMetricCodes caseFold prompt catalog := by
  obtain ⟨row, hrow, hcode, i, hi, hat⟩ := h
  refine mem_resolveMetricCodes.mpr ⟨?_, row, hrow, hcode, ?_⟩
  · rintro rfl
    exact absurd hi (Nat.not_lt_zero i)
  · rcases hat with ⟨h, -⟩ | ⟨h, -⟩
    exacts [h.isFound, h.isFound]

/-- **Only what is named is returned** exactly if every row that is found, be it as a part of
words or inside a longer name, has a code that the question names. -/
theorem resolvesWhatIsNamed_iff (caseFold : Char → List Char) (prompt : List Char)
    (catalog : List Row) :
    (∀ code, code ∈ resolveMetricCodes caseFold prompt catalog ↔
        Named caseFold prompt catalog code) ↔
      (prompt ≠ [] → ∀ row ∈ catalog, isFound caseFold prompt row = true →
        Named caseFold prompt catalog row.1) := by
  constructor
  · intro h hprompt row hrow hfound
    exact (h row.1).mp (mem_resolveMetricCodes.mpr ⟨hprompt, row, hrow, rfl, hfound⟩)
  · intro h code
    refine ⟨fun hmem => ?_, mem_resolveMetricCodes_of_named⟩
    obtain ⟨hprompt, row, hrow, rfl, hfound⟩ := mem_resolveMetricCodes.mp hmem
    exact h hprompt row hrow hfound

/-! ## What is returned besides -/

/-- Case folding of ASCII texts; other letters are taken to be small. -/
def asciiCaseFold (c : Char) : List Char := [c.toLower]

/-- Two lines of the income statement. -/
def incomeLines : List Row :=
  [("INTEREST_INCOME".toList, "Faiz Gelirleri".toList),
    ("NET_INTEREST_INCOME".toList, "Net Faiz Geliri veya Gideri".toList)]

/-- A line with a short name. -/
def profitLine : List Row := [("PROFIT".toList, "Kar".toList)]

/-- **More than what is named is returned**: interest income, inside the name of net interest
income, and profit, inside the word for *compare*. -/
theorem resolveMetricCodes_adds :
    ¬ (∀ code, code ∈ resolveMetricCodes asciiCaseFold
          "net faiz geliri veya gideri kalemini göster".toList incomeLines ↔
        Named asciiCaseFold "net faiz geliri veya gideri kalemini göster".toList incomeLines code) ∧
      ¬ (∀ code, code ∈ resolveMetricCodes asciiCaseFold
          "bankaları karşılaştır".toList profitLine ↔
        Named asciiCaseFold "bankaları karşılaştır".toList profitLine code) := by
  constructor
  · intro h
    have hmem := (h "INTEREST_INCOME".toList).mp
      (mem_resolveMetricCodes.mpr (by decide))
    exact absurd hmem (by decide)
  · intro h
    have hmem := (h "PROFIT".toList).mp (mem_resolveMetricCodes.mpr (by decide))
    exact absurd hmem (by decide)

end MetricResolution

end FinanceIntelligence
