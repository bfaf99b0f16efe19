import FinanceIntelligence.Scanning
import Mathlib.Data.List.Forall2

/-!
# Patterns with groups

A pattern with groups gives, from a place of a text, what its groups capture and where it ends,
for every way to match and in the order in which a backtracking matcher tries them. Patterns are
a monad: one after the other, with the groups bound to names.

For each construction one lemma says which captures and ends it has, whatever their order
(`mem_bind`, `mem_one`, `mem_many`, …); the order only decides which of them a match takes
(`matchAt`). A scan then needs no more than these lemmas: what is found satisfies them, and
where they have a solution something is found (`mem_finditer`, `exists_mem_finditer`).
-/

namespace FinanceIntelligence

/-- A pattern with groups. -/
def Pattern (γ : Type) : Type := Spot → List (γ × Spot)

namespace Pattern

variable {γ δ : Type}

/-- Nothing is read. -/
protected def pure (a : γ) : Pattern γ := fun x => [(a, x)]

/-- One after the other. -/
protected def bind (p : Pattern γ) (f : γ → Pattern δ) : Pattern δ :=
  fun x => (p x).flatMap fun (a, y) => f a y

instance : Monad Pattern where
  pure := Pattern.pure
  bind := Pattern.bind

/-- `p|q`. -/
def alt (p q : Pattern γ) : Pattern γ := fun x => p x ++ q x

/-- One character of a class. -/
def one (c : Char → Bool) : Pattern Char := fun x =>
  match x.rest with
  | [] => []
  | d :: s => if c d then [(d, ⟨some d, s⟩)] else []

/-- One character of a class, or nothing: `[…]?`. -/
def optOne (c : Char → Bool) : Pattern (List Char) :=
  alt (do let d ← one c; return [d]) (.pure [])

/-- What a greedy repetition of a class captures, the longest first. -/
def manyFrom (c : Char → Bool) : Option Char → List Char → List (List Char × Spot)
  | prev, [] => [([], ⟨prev, []⟩)]
  | prev, d :: s =>
    if c d then (manyFrom c (some d) s).map (fun (u, y) => (d :: u, y)) ++ [([], ⟨prev, d :: s⟩)]
    else [([], ⟨prev, d :: s⟩)]

/-- `[…]*`. -/
def many (c : Char → Bool) : Pattern (List Char) := fun x => manyFrom c x.prev x.rest

/-- `[…]+`. -/
def many1 (c : Char → Bool) : Pattern (List Char) := do
  let d ← one c
  let u ← many c
  return d :: u

/-- `(?:p){0,n}?`, the fewest first. -/
def few (p : Pattern γ) : ℕ → Pattern Unit
  | 0 => .pure ()
  | n + 1 => alt (.pure ()) (do let _ ← p; few p n)

/-- The characters of a list of classes, one after the other. -/
def chars : List (Char → Bool) → Pattern (List Char)
  | [] => .pure []
  | c :: cs => do
    let d ← one c
    let u ← chars cs
    return d :: u

/-- `\b`. -/
def bound (U : CharClass) : Pattern Unit := fun x =>
  if Regex.atBoundary U x then [((), x)] else []

/-- The match at a place: the first that is tried. -/
def matchAt (p : Pattern γ) : Spot → Option (γ × Spot) := fun x => (p x).head?

/-- `re.finditer`: the groups of the matches. -/
def finditer (p : Pattern γ) (text : List Char) : List γ :=
  (scan p.matchAt text).map fun (_, groups, _) => groups

/-! ## Captures and ends -/

variable {p q : Pattern γ} {f : γ → Pattern δ} {a : γ} {b : δ} {x y : Spot} {c : Char → Bool}
  {d : Char} {u : List Char} {U : CharClass}

@[simp] theorem mem_pure {a' : γ} : (a, y) ∈ (pure a' : Pattern γ) x ↔ a = a' ∧ y = x := by
  change (a, y) ∈ [(a', x)] ↔ _
  rw [List.mem_singleton, Prod.mk.injEq]

@[simp] theorem mem_pure' {a' : γ} : (a, y) ∈ Pattern.pure a' x ↔ a = a' ∧ y = x := mem_pure

@[simp] theorem mem_bind : (b, y) ∈ (p >>= f) x ↔ ∃ a z, (a, z) ∈ p x ∧ (b, y) ∈ f a z := by
  change (b, y) ∈ (p x).flatMap (fun (a, y) => f a y) ↔ _
  simp only [List.mem_flatMap, Prod.exists]

@[simp] theorem mem_alt : (a, y) ∈ alt p q x ↔ (a, y) ∈ p x ∨ (a, y) ∈ q x := List.mem_append

@[simp] theorem mem_one : (d, y) ∈ one c x ↔ x.Leads [d] y ∧ c d = true := by
  obtain ⟨prev, rest⟩ := x
  cases rest with
  | nil => exact iff_of_false List.not_mem_nil fun h => by simpa using h.1.rest
  | cons e s =>
    rw [one]
    constructor
    · intro h
      dsimp only at h
      split at h
      · rename_i he
        obtain ⟨rfl, rfl⟩ := Prod.mk.inj (List.mem_singleton.mp h)
        exact ⟨Spot.leads_cons prev d s, he⟩
      · exact absurd h List.not_mem_nil
    · rintro ⟨⟨hrest, hprev⟩, hd⟩
      obtain ⟨rfl, hs⟩ := List.cons.inj hrest
      dsimp only
      rw [if_pos hd, List.mem_singleton, Prod.mk.injEq]
      exact ⟨rfl, Spot.ext hprev hs.symm⟩

@[simp] theorem mem_optOne :
    (u, y) ∈ optOne c x ↔ x.Leads u y ∧ u.length ≤ 1 ∧ ∀ d ∈ u, c d = true := by
  simp only [optOne, mem_alt, mem_bind, mem_one, mem_pure, mem_pure']
  constructor
  · rintro (⟨d, z, ⟨hd, hc⟩, rfl, rfl⟩ | ⟨rfl, rfl⟩)
    · exact ⟨hd, Nat.le_refl 1, by simpa using hc⟩
    · exact ⟨.refl y, Nat.zero_le 1, by simp⟩
  · rintro ⟨hu, hlength, hc⟩
    match u, hlength with
    | [], _ => exact .inr ⟨rfl, Spot.ext (by simpa using hu.prev) (by simpa using hu.rest.symm)⟩
    | [d], _ => exact .inl ⟨d, y, ⟨hu, hc d (by simp)⟩, rfl, rfl⟩

theorem mem_manyFrom {prev : Option Char} {s : List Char} :
    (u, y) ∈ manyFrom c prev s ↔ Spot.Leads ⟨prev, s⟩ u y ∧ ∀ d ∈ u, c d = true := by
  have hnil : ∀ {u : List Char} {prev : Option Char} {s : List Char},
      (u, y) ∈ [(([] : List Char), (⟨prev, s⟩ : Spot))] ↔ u = [] ∧ Spot.Leads ⟨prev, s⟩ u y := by
    intro u prev s
    rw [List.mem_singleton, Prod.mk.injEq]
    exact and_congr_right fun hu => by rw [hu, Spot.leads_nil_iff]
  induction s generalizing prev u with
  | nil =>
    rw [manyFrom, hnil]
    constructor
    · rintro ⟨rfl, h⟩
      exact ⟨h, by simp⟩
    · rintro ⟨h, -⟩
      exact ⟨(List.append_eq_nil_iff.mp h.rest.symm).1, h⟩
  | cons e s ih =>
    rw [manyFrom]
    split
    · rename_i he
      rw [List.mem_append, hnil, List.mem_map]
      constructor
      · rintro (⟨⟨v, z⟩, hv, heq⟩ | ⟨rfl, h⟩)
        · obtain ⟨rfl, rfl⟩ := Prod.mk.inj heq
          obtain ⟨hleads, hall⟩ := ih.mp hv
          exact ⟨Spot.leads_cons_iff.mpr ⟨rfl, hleads⟩, List.forall_mem_cons.mpr ⟨he, hall⟩⟩
        · exact ⟨h, by simp⟩
      · rintro ⟨h, hall⟩
        cases u with
        | nil => exact .inr ⟨rfl, h⟩
        | cons d u =>
          obtain ⟨rfl, hleads⟩ := Spot.leads_cons_iff.mp h
          exact .inl ⟨(u, y), ih.mpr ⟨hleads, (List.forall_mem_cons.mp hall).2⟩, rfl⟩
    · rename_i he
      rw [hnil]
      constructor
      · rintro ⟨rfl, h⟩
        exact ⟨h, by simp⟩
      · rintro ⟨h, hall⟩
        cases u with
        | nil => exact ⟨rfl, h⟩
        | cons d u =>
          obtain ⟨rfl, -⟩ := Spot.leads_cons_iff.mp h
          exact absurd (hall d List.mem_cons_self) he

@[simp] theorem mem_many : (u, y) ∈ many c x ↔ x.Leads u y ∧ ∀ d ∈ u, c d = true := mem_manyFrom

@[simp] theorem mem_many1 :
    (u, y) ∈ many1 c x ↔ x.Leads u y ∧ u ≠ [] ∧ ∀ d ∈ u, c d = true := by
  simp only [many1, mem_bind, mem_one, mem_many, mem_pure]
  constructor
  · rintro ⟨d, z, ⟨hd, hc⟩, v, w, ⟨hv, hall⟩, rfl, rfl⟩
    exact ⟨hd.trans hv, List.cons_ne_nil d v, List.forall_mem_cons.mpr ⟨hc, hall⟩⟩
  · rintro ⟨hu, hne, hall⟩
    obtain ⟨d, v, rfl⟩ := List.exists_cons_of_ne_nil hne
    obtain ⟨hc, hall⟩ := List.forall_mem_cons.mp hall
    obtain ⟨z, hd, hv⟩ := Spot.leads_append_iff (m := [d]).mp hu
    exact ⟨d, z, ⟨hd, hc⟩, v, y, ⟨hv, hall⟩, rfl, rfl⟩

@[simp] theorem mem_chars {cs : List (Char → Bool)} :
    (u, y) ∈ chars cs x ↔ x.Leads u y ∧ List.Forall₂ (fun c d => c d = true) cs u := by
  induction cs generalizing x u y with
  | nil =>
    rw [chars, mem_pure', List.forall₂_nil_left_iff]
    constructor
    · rintro ⟨rfl, rfl⟩
      exact ⟨.refl y, rfl⟩
    · rintro ⟨h, rfl⟩
      exact ⟨rfl, Spot.leads_nil_iff.mp h⟩
  | cons c cs ih =>
    simp only [chars, mem_bind, mem_one, ih, mem_pure, List.forall₂_cons_left_iff]
    constructor
    · rintro ⟨d, z, ⟨hd, hc⟩, v, w, ⟨hv, hall⟩, rfl, rfl⟩
      exact ⟨hd.trans hv, d, v, hc, hall, rfl⟩
    · rintro ⟨hu, d, v, hc, hall, rfl⟩
      obtain ⟨z, hd, hv⟩ := Spot.leads_append_iff (m := [d]).mp hu
      exact ⟨d, z, ⟨hd, hc⟩, v, y, ⟨hv, hall⟩, rfl, rfl⟩

@[simp] theorem mem_bound {i : Unit} :
    (i, y) ∈ bound U x ↔ y = x ∧ Regex.atBoundary U x = true := by
  rw [bound]
  split
  · rename_i h
    simp [h]
  · rename_i h
    simp [h]

/-! ## Greed -/

/-- The match of one pattern after another one. -/
theorem matchAt_bind_eq_some (h : (p >>= f).matchAt x = some (b, y)) :
    ∃ a z, (a, z) ∈ p x ∧ (f a).matchAt z = some (b, y) := by
  change ((p x).flatMap fun (a, y) => f a y).head? = _ at h
  rw [List.head?_flatMap] at h
  obtain ⟨⟨a, z⟩, hmem, hmatch⟩ := List.exists_of_findSome?_eq_some h
  exact ⟨a, z, hmem, hmatch⟩

/-- The match of a pattern whose captures are put together. -/
theorem matchAt_map_eq_some {g : γ → δ}
    (h : (p >>= fun a => (pure (g a) : Pattern δ)).matchAt x = some (b, y)) :
    ∃ a, p.matchAt x = some (a, y) ∧ g a = b := by
  have hmap : ((p x).flatMap fun (a, y) => [(g a, y)]) = (p x).map fun (a, y) => (g a, y) :=
    (List.map_eq_flatMap ..).symm
  change ((p x).flatMap fun (a, y) => [(g a, y)]).head? = _ at h
  rw [hmap, List.head?_map] at h
  obtain ⟨⟨a, z⟩, hhead, heq⟩ := Option.map_eq_some_iff.mp h
  obtain ⟨rfl, rfl⟩ := Prod.mk.inj heq
  exact ⟨a, hhead, rfl⟩

/-- A repetition takes all that it can. -/
theorem head?_manyFrom {prev : Option Char} {s : List Char}
    (h : (manyFrom c prev s).head? = some (u, y)) : ∀ d ∈ y.rest.head?, c d = false := by
  induction s generalizing prev u with
  | nil =>
    obtain ⟨rfl, rfl⟩ := Prod.mk.inj (Option.some.inj h)
    exact fun d hd => nomatch hd
  | cons e s ih =>
    rw [manyFrom] at h
    split at h
    · rw [List.head?_append, List.head?_map, Option.or_eq_some_iff] at h
      rcases h with h | ⟨hnone, -⟩
      · obtain ⟨⟨v, z⟩, hhead, heq⟩ := Option.map_eq_some_iff.mp h
        obtain ⟨-, rfl⟩ := Prod.mk.inj heq
        exact ih hhead
      · -- a repetition always ends somewhere
        rw [Option.map_eq_none_iff, List.head?_eq_none_iff] at hnone
        have hmem : (([] : List Char), (⟨some e, s⟩ : Spot)) ∈ manyFrom c (some e) s :=
          mem_manyFrom.mpr ⟨.refl _, by simp⟩
        exact absurd (hnone ▸ hmem) List.not_mem_nil
    · rename_i he
      obtain ⟨-, rfl⟩ := Prod.mk.inj (Option.some.inj h)
      rintro d hd
      obtain rfl := Option.some.inj hd
      exact Bool.eq_false_iff.mpr he

/-- What follows a repetition at the end of a pattern is of another class. -/
theorem matchAt_many1 (h : (many1 c).matchAt x = some (u, y)) :
    ∀ d ∈ y.rest.head?, c d = false := by
  obtain ⟨d, z, -, h⟩ := matchAt_bind_eq_some h
  obtain ⟨v, hv, -⟩ := matchAt_map_eq_some h
  exact head?_manyFrom hv

/-! ## Scans -/

/-- The pattern ends at a later place, or where it starts. -/
def Later (p : Pattern γ) : Prop := ∀ {x a y}, (a, y) ∈ p x → ∃ m, x.Leads m y

/-- The pattern reads some of the text. -/
def Advances (p : Pattern γ) : Prop := ∀ {x a y}, (a, y) ∈ p x → ∃ m ≠ [], x.Leads m y

theorem Later.few (hp : Later p) {n : ℕ} : Later (few p n) := by
  induction n with
  | zero =>
    intro x a y h
    exact ⟨[], Spot.leads_nil_iff.mpr (mem_pure'.mp h).2⟩
  | succ n ih =>
    intro x a y h
    rcases mem_alt.mp h with h | h
    · exact ⟨[], Spot.leads_nil_iff.mpr (mem_pure'.mp h).2⟩
    · obtain ⟨_, z, hz, hy⟩ := mem_bind.mp h
      obtain ⟨m, hm⟩ := hp hz
      obtain ⟨m', hm'⟩ := ih hy
      exact ⟨_, hm.trans hm'⟩

theorem mem_of_matchAt (h : p.matchAt x = some (a, y)) : (a, y) ∈ p x := List.mem_of_mem_head? h

theorem Advances.reads (hp : Advances p) : Reads p.matchAt :=
  fun _ _ _ h => hp (mem_of_matchAt h)

/-- What is found is a way to match, at a place of the text. -/
theorem mem_finditer (hp : Advances p) {text : List Char} (h : a ∈ finditer p text) :
    ∃ m x y, (Spot.start text).Leads m x ∧ (a, y) ∈ p x := by
  obtain ⟨⟨x, groups, y⟩, hmem, rfl⟩ := List.mem_map.mp h
  obtain ⟨hmatch, m, hm⟩ := mem_scanFrom hp.reads hmem
  exact ⟨m, x, y, hm, mem_of_matchAt hmatch⟩

/-- Where there is a way to match, something was found that starts there or before and ends
behind. -/
theorem exists_mem_finditer (hp : Advances p) {text m : List Char}
    (hx : (Spot.start text).Leads m x) (h : (a, y) ∈ p x) :
    ∃ a' m' x' y', a' ∈ finditer p text ∧ (Spot.start text).Leads m' x' ∧ (a', y') ∈ p x' ∧
      (∃ u, x'.Leads u x) ∧ y'.rest.length < x.rest.length := by
  have hsome : (p.matchAt x).isSome = true := by
    rw [matchAt, List.isSome_head?]
    exact List.ne_nil_of_mem h
  obtain ⟨x', a', y', hmem, hu, hlength⟩ :=
    exists_mem_scanFrom hp.reads (Nat.le_refl _) hx hsome
  obtain ⟨hmatch, m', hm'⟩ := mem_scanFrom hp.reads hmem
  exact ⟨a', m', x', y', List.mem_map.mpr ⟨_, hmem, rfl⟩, hm', mem_of_matchAt hmatch, hu, hlength⟩

/-- Where there is a way to match, and no other match reaches over the place, something was found
that starts there. -/
theorem exists_mem_finditer_at (hp : Advances p) {text m : List Char}
    (hx : (Spot.start text).Leads m x) (h : (a, y) ∈ p x)
    (honly : ∀ {m' x' a' y' w}, (Spot.start text).Leads m' x' → (a', y') ∈ p x' → x'.Leads w x →
      y'.rest.length < x.rest.length → w = []) :
    ∃ a' y', a' ∈ finditer p text ∧ (a', y') ∈ p x := by
  obtain ⟨a', m', x', y', ha', hx', hmem, ⟨w, hw⟩, hlength⟩ := exists_mem_finditer hp hx h
  obtain rfl := honly hx' hmem hw hlength
  obtain rfl := Spot.leads_nil_iff.mp hw
  exact ⟨a', y', ha', hmem⟩

/-- Every match captures a piece of what it reads. -/
def Captures (p : Pattern γ) (S : γ → List Char → Prop) : Prop :=
  ∀ {x a y}, (a, y) ∈ p x → ∃ m₁ w m₂, x.Leads (m₁ ++ w ++ m₂) y ∧ S a w

theorem Captures.advances {S : γ → List Char → Prop} (hp : Captures p S)
    (hne : ∀ {a w}, S a w → w ≠ []) : Advances p := by
  intro x a y h
  obtain ⟨m₁, w, m₂, hleads, hw⟩ := hp h
  exact ⟨_, List.append_ne_nil_of_left_ne_nil (List.append_ne_nil_of_right_ne_nil _ (hne hw)) _,
    hleads⟩

/-- What is captured is a piece of the text. -/
theorem Captures.mem_finditer {S : γ → List Char → Prop} (hp : Captures p S)
    (hne : ∀ {a w}, S a w → w ≠ []) {text : List Char} (h : a ∈ finditer p text) :
    ∃ w, w <:+: text ∧ S a w := by
  obtain ⟨m, x, y, hx, hmem⟩ := Pattern.mem_finditer (hp.advances hne) h
  obtain ⟨m₁, w, m₂, hleads, hw⟩ := hp hmem
  have htext : text = m ++ (m₁ ++ w ++ m₂ ++ y.rest) := by
    rw [← hleads.rest]
    exact hx.rest
  exact ⟨w, ⟨m ++ m₁, m₂ ++ y.rest, by rw [htext]; simp only [List.append_assoc]⟩, hw⟩

end Pattern

end FinanceIntelligence
