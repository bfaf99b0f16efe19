import Mathlib.Data.List.Basic

/-!
# Backtracking regular expressions

A general layer: the part of Python's `re` that scanners of running text need.
A pattern denotes, at a place in a text, the **list of places** a backtracking
matcher tries as ends of a match, in its order of preference; the match it
reports is the head of that list.

Which characters are word characters, digits and blanks depends on the version
of the Unicode database, so the classification is a parameter (`CharClass`).
-/

namespace FinanceIntelligence

/-- Texts are compared character by character. -/
instance lawfulBEqText : LawfulBEq (List Char) := inferInstance

/-- Capital letters lie side by side. -/
theorem toNat_of_isUpper {c : Char} (h : c.isUpper = true) : 65 ≤ c.toNat ∧ c.toNat ≤ 90 :=
  of_decide_eq_true h

/-- So do small letters. -/
theorem toNat_of_isLower {c : Char} (h : c.isLower = true) : 97 ≤ c.toNat ∧ c.toNat ≤ 122 :=
  (Bool.and_eq_true_iff.mp h).imp of_decide_eq_true of_decide_eq_true

/-- The lower case of a capital letter comes later; any other character is kept. -/
theorem toLower_cases (c : Char) :
    (65 ≤ c.toNat ∧ c.toNat ≤ 90 ∧ c.toLower.toNat = c.toNat + 32) ∨
      ¬ (65 ≤ c.toNat ∧ c.toNat ≤ 90) ∧ c.toLower = c := by
  by_cases hupper : c.val ≥ 'A'.val ∧ c.val ≤ 'Z'.val
  · have hval : c.toLower.val = c.val + 32 := congrArg Char.val (dif_pos hupper)
    have hge : 65 ≤ c.val.toNat := UInt32.le_iff_toNat_le.mp hupper.1
    have hle : c.val.toNat ≤ 90 := UInt32.le_iff_toNat_le.mp hupper.2
    refine .inl ⟨hge, hle, ?_⟩
    rw [Char.toNat, hval, UInt32.toNat_add]
    exact Nat.mod_eq_of_lt (show c.val.toNat + 32 < 2 ^ 32 by omega)
  · exact .inr ⟨hupper, dif_neg hupper⟩

/-- A classification of characters, as `\w`, `\d` and `\s` read it. -/
structure CharClass where
  /-- letters, digits and the underscore -/
  word : Char → Bool
  /-- the value of a decimal digit, of any script -/
  digit : Char → Option ℕ
  /-- blanks -/
  space : Char → Bool
  /-- digits are word characters -/
  word_of_digit : ∀ c, (digit c).isSome → word c = true
  /-- the value is one of ten -/
  digit_lt : ∀ c n, digit c = some n → n < 10

/-- The classification of the ASCII characters; it is right on ASCII text. -/
def CharClass.ascii : CharClass where
  word c := c.isAlphanum || c == '_'
  digit c := if c.isDigit then some (c.toNat - '0'.toNat) else none
  space c := c == ' ' || (9 ≤ c.toNat && c.toNat ≤ 13) || (28 ≤ c.toNat && c.toNat ≤ 31)
  word_of_digit c h := by
    have hc : c.isDigit = true := by
      by_contra hc
      simp [hc] at h
    simp [Char.isAlphanum, hc]
  digit_lt c n h := by
    split at h
    · rename_i hc
      simp only [Char.isDigit, ge_iff_le, Bool.and_eq_true, decide_eq_true_eq] at hc
      have h₁ : c.toNat ≤ '9'.toNat := hc.2
      have h₂ : '9'.toNat = 57 ∧ '0'.toNat = 48 := by decide
      obtain rfl := Option.some.inj h
      omega
    · cases h

/-- A pattern; every repetition is greedy. -/
inductive Regex where
  /-- one character of a class -/
  | one (p : Char → Bool)
  /-- one after the other -/
  | seq (r s : Regex)
  /-- `r?` -/
  | opt (r : Regex)
  /-- `r*` -/
  | star (r : Regex)
  /-- `\b` -/
  | bound

/-- A place in a text: the character before it and what follows. -/
structure Spot where
  /-- the character before -/
  prev : Option Char
  /-- what follows -/
  rest : List Char

namespace Spot

/-- The beginning of a text. -/
def start (text : List Char) : Spot := ⟨none, text⟩

/-- The characters from one place to a later one. -/
def upTo (x y : Spot) : List Char := x.rest.take (x.rest.length - y.rest.length)

/-- The place in the text with every character replaced. -/
def map (g : Char → Char) (x : Spot) : Spot := ⟨x.prev.map g, x.rest.map g⟩

@[simp] theorem length_rest_map (g : Char → Char) (x : Spot) :
    (x.map g).rest.length = x.rest.length := List.length_map ..

end Spot

namespace Regex

/-- `r+`. -/
def plus (r : Regex) : Regex := .seq r (.star r)

/-- The characters of a list, one after the other. -/
def chars (l : List (Char → Bool)) (r : Regex) : Regex := l.foldr (fun p r => .seq (.one p) r) r

variable (U : CharClass)

/-- A word starts or ends here. -/
def atBoundary (x : Spot) : Bool := x.prev.any U.word != x.rest.head?.any U.word

/-- The ends a greedy repetition tries; a round that consumes nothing stops it. -/
def starEnds (f : Spot → List Spot) : ℕ → Spot → List Spot
  | 0, x => [x]
  | n + 1, x =>
    ((f x).filter fun y => y.rest.length < x.rest.length).flatMap (starEnds f n) ++ [x]

/-- The ends the matcher tries, in its order. -/
def ends : Regex → Spot → List Spot
  | .one p, x =>
    match x.rest with
    | [] => []
    | c :: cs => if p c then [⟨some c, cs⟩] else []
  | .seq r s, x => (ends r x).flatMap (ends s)
  | .opt r, x => ends r x ++ [x]
  | .star r, x => starEnds (ends r) x.rest.length x
  | .bound, x => if atBoundary U x then [x] else []

/-- `re.match`: the match at this place. -/
def matchAt (r : Regex) (x : Spot) : Option (List Char) := (ends U r x).head?.map x.upTo

/-- `re.search(...).group(0)`: the first match at this place or a later one. -/
def searchFrom (r : Regex) : List Char → Option Char → Option (List Char)
  | [], prev => matchAt U r ⟨prev, []⟩
  | c :: cs, prev =>
    match matchAt U r ⟨prev, c :: cs⟩ with
    | some m => some m
    | none => searchFrom r cs (some c)

/-- `re.search(...).group(0)`. -/
def search (r : Regex) (text : List Char) : Option (List Char) := searchFrom U r text none

/-- The matches from a place on, none overlapping another, of a pattern that
matches no empty text. The first argument bounds the length of what follows. -/
def findAllFrom (r : Regex) : ℕ → Spot → List (List Char)
  | 0, _ => []
  | n + 1, x =>
    match x.rest, (ends U r x).head? with
    | [], _ => []
    | _ :: _, some y => x.upTo y :: findAllFrom r n y
    | c :: cs, none => findAllFrom r n ⟨some c, cs⟩

/-- `re.findall`. -/
def findAll (r : Regex) (text : List Char) : List (List Char) :=
  findAllFrom U r text.length (.start text)

/-! ## Languages -/

/-- The texts of the language of a pattern, its bounds left out. -/
def Lang : Regex → List Char → Prop
  | .one p, m => ∃ c, m = [c] ∧ p c = true
  | .seq r s, m => ∃ m₁ m₂, m = m₁ ++ m₂ ∧ Lang r m₁ ∧ Lang s m₂
  | .opt r, m => Lang r m ∨ m = []
  | .star r, m => ∃ ms : List (List Char), m = ms.flatten ∧ ∀ x ∈ ms, Lang r x
  | .bound, m => m = []

variable {U} {r : Regex} {x y : Spot} {m : List Char}

theorem lang_starEnds {f : Spot → List Spot}
    (hf : ∀ {x y}, y ∈ f x → ∃ m, x.rest = m ++ y.rest ∧ Lang r m) {n : ℕ} :
    ∀ {x y : Spot}, y ∈ starEnds f n x → ∃ m, x.rest = m ++ y.rest ∧ Lang (.star r) m := by
  have hnil : Lang (.star r) [] := ⟨[], rfl, nofun⟩
  induction n with
  | zero =>
    intro x y h
    obtain rfl := List.mem_singleton.mp h
    exact ⟨[], rfl, hnil⟩
  | succ n ih =>
    intro x y h
    rcases List.mem_append.mp h with h | h
    · obtain ⟨z, hz, hy⟩ := List.mem_flatMap.mp h
      obtain ⟨m₁, hm₁, hl₁⟩ := hf (List.mem_of_mem_filter hz)
      obtain ⟨m₂, hm₂, ms, rfl, hl₂⟩ := ih hy
      refine ⟨m₁ ++ ms.flatten, by rw [hm₁, hm₂, List.append_assoc], m₁ :: ms, rfl, ?_⟩
      intro z hz
      rcases List.mem_cons.mp hz with rfl | hz
      · exact hl₁
      · exact hl₂ z hz
    · obtain rfl := List.mem_singleton.mp h
      exact ⟨[], rfl, hnil⟩

/-- What lies between a place and an end of a match is in the language. -/
theorem lang_of_mem_ends : ∀ {r : Regex} {x y : Spot}, y ∈ ends U r x →
    ∃ m, x.rest = m ++ y.rest ∧ Lang r m
  | .one p, x, y, h => by
    rw [ends] at h
    split at h
    · cases h
    · rename_i c cs hrest
      split at h
      · rename_i hp
        obtain rfl := List.mem_singleton.mp h
        exact ⟨[c], hrest, c, rfl, hp⟩
      · cases h
  | .seq r s, x, y, h => by
    obtain ⟨z, hz, hy⟩ := List.mem_flatMap.mp h
    obtain ⟨m₁, hm₁, hl₁⟩ := lang_of_mem_ends hz
    obtain ⟨m₂, hm₂, hl₂⟩ := lang_of_mem_ends hy
    exact ⟨m₁ ++ m₂, by rw [hm₁, hm₂, List.append_assoc], m₁, m₂, rfl, hl₁, hl₂⟩
  | .opt r, x, y, h => by
    rcases List.mem_append.mp h with h | h
    · obtain ⟨m, hm, hl⟩ := lang_of_mem_ends h
      exact ⟨m, hm, .inl hl⟩
    · obtain rfl := List.mem_singleton.mp h
      exact ⟨[], rfl, .inr rfl⟩
  | .star r, x, y, h => lang_starEnds (fun {x y} h => lang_of_mem_ends h) h
  | .bound, x, y, h => by
    rw [ends] at h
    split at h
    · obtain rfl := List.mem_singleton.mp h
      exact ⟨[], rfl, rfl⟩
    · cases h

theorem upTo_of_append (h : x.rest = m ++ y.rest) : x.upTo y = m := by
  rw [Spot.upTo, h, List.length_append, Nat.add_sub_cancel, List.take_left]

/-- What a search finds is a part of the text, in the language of the pattern. -/
theorem lang_of_searchFrom {text : List Char} : ∀ {prev : Option Char},
    searchFrom U r text prev = some m → m <:+: text ∧ Lang r m := by
  have hmatch : ∀ {x : Spot}, matchAt U r x = some m → m <:+: x.rest ∧ Lang r m := by
    intro x h
    obtain ⟨y, hy, rfl⟩ := Option.map_eq_some_iff.mp h
    obtain ⟨m, hm, hl⟩ := lang_of_mem_ends (List.mem_of_mem_head? hy)
    rw [upTo_of_append hm]
    exact ⟨⟨[], y.rest, hm.symm⟩, hl⟩
  induction text with
  | nil => exact fun h => hmatch h
  | cons c cs ih =>
    intro prev h
    rw [searchFrom] at h
    split at h
    · rename_i heq
      exact hmatch (heq.trans h)
    · exact ⟨(ih h).1.trans (List.suffix_cons c cs).isInfix, (ih h).2⟩

theorem lang_of_search {text : List Char} (h : search U r text = some m) :
    m <:+: text ∧ Lang r m := lang_of_searchFrom h

/-- What is found is in the language of the pattern. -/
theorem lang_of_mem_findAllFrom {n : ℕ} :
    ∀ {x : Spot}, m ∈ findAllFrom U r n x → Lang r m := by
  induction n with
  | zero =>
    intro x h
    cases h
  | succ n ih =>
    intro x h
    rw [findAllFrom] at h
    split at h
    · cases h
    · rename_i y _ hy
      rcases List.mem_cons.mp h with rfl | h
      · obtain ⟨m, hm, hl⟩ := lang_of_mem_ends (List.mem_of_mem_head? hy)
        rwa [upTo_of_append hm]
      · exact ih h
    · exact ih h

theorem lang_of_mem_findAll {text : List Char} (h : m ∈ findAll U r text) : Lang r m :=
  lang_of_mem_findAllFrom h

/-! ## Texts that a pattern cannot tell apart -/

variable {g : Char → Char}

/-- The pattern does not tell a character from its replacement. -/
def Blind (g : Char → Char) : Regex → Prop
  | .one p => ∀ c, p (g c) = p c
  | .seq r s => Blind g r ∧ Blind g s
  | .opt r => Blind g r
  | .star r => Blind g r
  | .bound => False

theorem starEnds_map {f : Spot → List Spot} (hf : ∀ x, f (x.map g) = (f x).map (Spot.map g))
    (n : ℕ) (x : Spot) : starEnds f n (x.map g) = (starEnds f n x).map (Spot.map g) := by
  induction n generalizing x with
  | zero => rfl
  | succ n ih =>
    simp [starEnds, hf, List.filter_map, List.flatMap_map, List.map_flatMap, ih,
      Function.comp_def]

/-- A pattern has the same ends in a text that it does not tell from another. -/
theorem ends_map : ∀ {r : Regex}, r.Blind g → ∀ x : Spot,
    ends U r (x.map g) = (ends U r x).map (Spot.map g)
  | .one p, h, ⟨prev, []⟩ => rfl
  | .one p, h, ⟨prev, c :: cs⟩ => by
    simp only [ends, Spot.map, List.map_cons, h c]
    split <;> rfl
  | .seq r s, h, x => by
    simp [ends, ends_map h.1, ends_map h.2, List.flatMap_map, List.map_flatMap]
  | .opt r, h, x => by
    have hr : r.Blind g := h
    simp [ends, ends_map hr]
  | .star r, h, x => by
    have hr : r.Blind g := h
    rw [ends, ends, Spot.length_rest_map, starEnds_map fun x => ends_map hr x]
  | .bound, h, x => h.elim

/-- **A search cannot tell** two texts apart that its pattern cannot tell apart. -/
theorem isSome_search_map (h : r.Blind g) (text : List Char) :
    (search U r (text.map g)).isSome = (search U r text).isSome := by
  have hmatch (x : Spot) : (matchAt U r (x.map g)).isSome = (matchAt U r x).isSome := by
    simp [matchAt, ends_map h]
  have hfrom : ∀ prev : Option Char,
      (searchFrom U r (text.map g) (prev.map g)).isSome = (searchFrom U r text prev).isSome := by
    induction text with
    | nil => exact fun prev => hmatch ⟨prev, []⟩
    | cons c cs ih =>
      intro prev
      have hhere := hmatch ⟨prev, c :: cs⟩
      rw [List.map_cons, searchFrom, searchFrom]
      cases heq : matchAt U r ⟨prev, c :: cs⟩ with
      | some m =>
        rw [heq, Option.isSome_some] at hhere
        obtain ⟨m', hm'⟩ := Option.isSome_iff_exists.mp hhere
        have hm' : matchAt U r ⟨prev.map g, g c :: cs.map g⟩ = some m' := hm'
        simp [hm']
      | none =>
        rw [heq, Option.isSome_none] at hhere
        have hm' : matchAt U r ⟨prev.map g, g c :: cs.map g⟩ = none := by
          simpa [Spot.map] using hhere
        rw [hm']
        exact ih (some c)
  exact hfrom none
end Regex

end FinanceIntelligence
