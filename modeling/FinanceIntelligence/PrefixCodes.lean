import FinanceIntelligence.PyText
import Mathlib.Algebra.Group.Nat.Defs
import Mathlib.Logic.Function.Basic

/-!
# Texts that can be split again

A general layer over an alphabet of any type: a piece that ends at the first separator,
numerals of a fixed width, and pieces that stand after their length. Each is a **prefix code**:
from the whole text and what follows it, the piece can be told.
-/

namespace FinanceIntelligence

variable {α β : Type}

/-- The first separator splits a text in one way. -/
theorem append_cons_inj {c : α} {x x' y y' : List α} (hx : c ∉ x) (hx' : c ∉ x')
    (h : x ++ c :: y = x' ++ c :: y') : x = x' ∧ y = y' := by
  induction x generalizing x' with
  | nil =>
    cases x' with
    | nil => exact ⟨rfl, (List.cons.inj h).2⟩
    | cons d x' =>
      obtain rfl := (List.cons.inj h).1
      exact absurd List.mem_cons_self hx'
  | cons d x ih =>
    cases x' with
    | nil =>
      obtain rfl := (List.cons.inj h).1
      exact absurd List.mem_cons_self hx
    | cons d' x' =>
      obtain ⟨rfl, htail⟩ := List.cons.inj h
      obtain ⟨rfl, hy⟩ :=
        ih (List.not_mem_of_not_mem_cons hx) (List.not_mem_of_not_mem_cons hx') htail
      exact ⟨rfl, hy⟩

/-! ## Numerals -/

/-- The decimal digits of a number tell it. -/
theorem toDigits_ten_injective {m n : ℕ} (h : Nat.toDigits 10 m = Nat.toDigits 10 n) : m = n := by
  have hvalue := congrArg (fun l => Nat.ofDigitChars 10 l 0) h
  simpa only [Nat.ofDigitChars_ten_toDigits] using hvalue

/-- Only digits stand in a decimal numeral. -/
theorem not_mem_toDigits_ten {c : Char} (hc : c.isDigit = false) (n : ℕ) :
    c ∉ Nat.toDigits 10 n := by
  intro h
  have := Nat.isDigit_of_mem_toDigits (by omega) (by omega) h
  rw [hc] at this
  cases this

/-- The last `w` digits of a number to the base `b`. -/
def padded (b : ℕ) (digit : ℕ → α) : ℕ → ℕ → List α
  | 0, _ => []
  | w + 1, n => padded b digit w (n / b) ++ [digit (n % b)]

@[simp] theorem length_padded (b : ℕ) (digit : ℕ → α) (w n : ℕ) :
    (padded b digit w n).length = w := by
  induction w generalizing n with
  | zero => rfl
  | succ w ih => rw [padded, List.length_append, ih, List.length_singleton]

/-- The digits tell a number that they suffice for. -/
theorem padded_injective {b : ℕ} {digit : ℕ → α} (hb : 0 < b)
    (hdigit : ∀ i < b, ∀ j < b, digit i = digit j → i = j) {w m n : ℕ} (hm : m < b ^ w)
    (hn : n < b ^ w) (h : padded b digit w m = padded b digit w n) : m = n := by
  induction w generalizing m n with
  | zero =>
    rw [Nat.pow_zero] at hm hn
    omega
  | succ w ih =>
    obtain ⟨hinit, hlast⟩ := List.append_inj h (by simp)
    have hdiv : m / b = n / b :=
      ih (Nat.div_lt_of_lt_mul (by rwa [Nat.mul_comm, ← Nat.pow_succ]))
        (Nat.div_lt_of_lt_mul (by rwa [Nat.mul_comm, ← Nat.pow_succ])) hinit
    have hmod : m % b = n % b :=
      hdigit _ (Nat.mod_lt _ hb) _ (Nat.mod_lt _ hb) (List.cons.inj hlast).1
    rw [← Nat.div_add_mod m b, ← Nat.div_add_mod n b, hdiv, hmod]

/-- The last `w` decimal digits of a number, as `%0wd` writes a number that is not longer. -/
def decimalText (w n : ℕ) : List Char := padded 10 Nat.digitChar w n

@[simp] theorem length_decimalText (w n : ℕ) : (decimalText w n).length = w := length_padded ..

/-- The decimal digits tell a number that they suffice for. -/
theorem decimalText_injective {w m n : ℕ} (hm : m < 10 ^ w) (hn : n < 10 ^ w)
    (h : decimalText w m = decimalText w n) : m = n :=
  padded_injective (by omega) (by decide) hm hn h

/-! ## Pieces after their length -/

/-- `f"{len(p)}:{p}"`, over an alphabet with the ASCII characters. -/
def lengthPrefixed (ascii : Char → α) (p : List α) : List α :=
  (Nat.toDigits 10 p.length).map ascii ++ ascii ':' :: p

/-- A piece that stands after its length can be told from what follows it. -/
theorem lengthPrefixed_append_inj {ascii : Char → α} (hascii : Function.Injective ascii)
    {p q x y : List α} (h : lengthPrefixed ascii p ++ x = lengthPrefixed ascii q ++ y) :
    p = q ∧ x = y := by
  -- no digit is the colon, so the numerals agree
  have hcolon : ∀ n, ascii ':' ∉ (Nat.toDigits 10 n).map ascii := by
    intro n hmem
    obtain ⟨c, hc, heq⟩ := List.mem_map.mp hmem
    obtain rfl := hascii heq
    exact not_mem_toDigits_ten (by decide) n hc
  simp only [lengthPrefixed, List.append_assoc, List.cons_append] at h
  obtain ⟨hdigits, hrest⟩ := append_cons_inj (hcolon _) (hcolon _) h
  have hlength : p.length = q.length :=
    toDigits_ten_injective (List.map_injective_iff.mpr hascii hdigits)
  exact List.append_inj hrest hlength

/-- `"|".join(f"{len(p)}:{p}" for p in parts)`. -/
def joinPrefixed (ascii : Char → α) : List (List α) → List α
  | [] => []
  | [p] => lengthPrefixed ascii p
  | p :: q :: parts => lengthPrefixed ascii p ++ ascii '|' :: joinPrefixed ascii (q :: parts)

/-- **The pieces can be told from the text**, whatever characters they have. -/
theorem joinPrefixed_injective {ascii : Char → α} (hascii : Function.Injective ascii)
    {parts parts' : List (List α)} (h : joinPrefixed ascii parts = joinPrefixed ascii parts') :
    parts = parts' := by
  -- a piece leaves a text, so the lists end together
  have hne : ∀ (p : List α) (parts : List (List α)), joinPrefixed ascii (p :: parts) ≠ [] := by
    intro p parts
    cases parts <;> simp [joinPrefixed, lengthPrefixed]
  induction parts generalizing parts' with
  | nil =>
    cases parts' with
    | nil => rfl
    | cons q parts' => exact absurd h.symm (hne q parts')
  | cons p parts ih =>
    cases parts' with
    | nil => exact absurd h (hne p parts)
    | cons q parts' =>
      cases parts with
      | nil =>
        cases parts' with
        | nil =>
          simp only [joinPrefixed] at h
          obtain ⟨rfl, -⟩ := lengthPrefixed_append_inj hascii (congrArg (· ++ []) h)
          rfl
        | cons q' parts' =>
          have h' : lengthPrefixed ascii p ++ [] =
              lengthPrefixed ascii q ++ ascii '|' :: joinPrefixed ascii (q' :: parts') := by
            rw [List.append_nil]
            exact h
          cases (lengthPrefixed_append_inj hascii h').2
      | cons p' parts =>
        cases parts' with
        | nil =>
          have h' : lengthPrefixed ascii p ++ ascii '|' :: joinPrefixed ascii (p' :: parts) =
              lengthPrefixed ascii q ++ [] := by
            rw [List.append_nil]
            exact h
          cases (lengthPrefixed_append_inj hascii h').2
        | cons q' parts' =>
          obtain ⟨rfl, hrest⟩ := lengthPrefixed_append_inj hascii h
          rw [ih (List.cons.inj hrest).2]

end FinanceIntelligence
