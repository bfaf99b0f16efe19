import FinanceIntelligence.Regex

/-!
# Scanning a text

A pattern is tried at every place of a text from left to right; after a match the scan goes on
where it ends. `scanFrom` is this loop for any matcher, with what it captures; `re.findall` is
the scan with the ends of a pattern (`findAll_eq_map_scan`).

* `mem_scanFrom` — what a scan finds are **matches**, at places of the text;
* `exists_mem_scanFrom` — **nothing is overlooked**: a place where the pattern matches is one
  that was found, or lies inside a match that was;
* `Spot.Leads` — the places of a text, one after the other;
* `Regex.leads_of_mem_ends`, `Regex.all_of_lang` — an end of a pattern is a **later place**, and
  what lies between is made of its characters.
-/

namespace FinanceIntelligence

namespace Spot

theorem ext {x y : Spot} (hprev : x.prev = y.prev) (hrest : x.rest = y.rest) : x = y := by
  cases x
  cases y
  exact congrArg₂ Spot.mk hprev hrest

/-- From one place, reading `m` leads to the other one. -/
structure Leads (x : Spot) (m : List Char) (y : Spot) : Prop where
  /-- what is read -/
  rest : x.rest = m ++ y.rest
  /-- the character before the place that is reached -/
  prev : y.prev = (m.getLast?).or x.prev

theorem Leads.refl (x : Spot) : x.Leads [] x := ⟨rfl, rfl⟩

theorem Leads.trans {x y z : Spot} {m m' : List Char} (h : x.Leads m y) (h' : y.Leads m' z) :
    x.Leads (m ++ m') z := by
  refine ⟨by rw [h.rest, h'.rest, List.append_assoc], ?_⟩
  rw [h'.prev, h.prev, List.getLast?_append, Option.or_assoc]

theorem Leads.length {x y : Spot} {m : List Char} (h : x.Leads m y) :
    x.rest.length = m.length + y.rest.length := by
  rw [h.rest, List.length_append]

@[simp] theorem leads_nil_iff {x y : Spot} : x.Leads [] y ↔ y = x := by
  constructor
  · intro h
    exact Spot.ext (by simpa using h.prev) (by simpa using h.rest.symm)
  · rintro rfl
    exact .refl y

/-- The first character, and then the others. -/
theorem leads_cons_iff {prev : Option Char} {c d : Char} {s m : List Char} {y : Spot} :
    Leads ⟨prev, c :: s⟩ (d :: m) y ↔ d = c ∧ Leads ⟨some c, s⟩ m y := by
  have hlast : ((d :: m).getLast?).or prev = (m.getLast?).or (some d) := by
    cases m with
    | nil => rfl
    | cons e m =>
      rw [List.getLast?_cons_cons, List.getLast?_eq_some_getLast (List.cons_ne_nil e m)]
      rfl
  constructor
  · rintro ⟨hrest, hprev⟩
    have hrest : c :: s = d :: (m ++ y.rest) := hrest
    obtain ⟨rfl, rfl⟩ := List.cons.inj hrest
    exact ⟨rfl, rfl, hprev.trans hlast⟩
  · rintro ⟨rfl, hrest, hprev⟩
    have hrest : s = m ++ y.rest := hrest
    exact ⟨by rw [hrest]; rfl, hprev.trans hlast.symm⟩

/-- What is read can be read in two parts. -/
theorem leads_append_iff {x y : Spot} {m m' : List Char} :
    x.Leads (m ++ m') y ↔ ∃ z, x.Leads m z ∧ z.Leads m' y := by
  constructor
  · intro h
    refine ⟨⟨(m.getLast?).or x.prev, m' ++ y.rest⟩, ⟨?_, rfl⟩, ⟨rfl, ?_⟩⟩
    · rw [h.rest, List.append_assoc]
    · rw [h.prev, List.getLast?_append, Option.or_assoc]
  · rintro ⟨z, h, h'⟩
    exact h.trans h'

theorem leads_cons (prev : Option Char) (c : Char) (s : List Char) :
    Leads ⟨prev, c :: s⟩ [c] ⟨some c, s⟩ := ⟨rfl, rfl⟩

/-- A text leads from its beginning to every one of its places. -/
theorem leads_start (before after : List Char) :
    (start (before ++ after)).Leads before ⟨before.getLast?, after⟩ :=
  ⟨rfl, (Option.or_none).symm⟩

/-- Of two places of a text, the one that leaves less comes later. -/
theorem Leads.of_length_le {x y z : Spot} {m m' : List Char} (hy : x.Leads m y) (hz : x.Leads m' z)
    (hle : z.rest.length ≤ y.rest.length) : ∃ m'', y.Leads m'' z ∧ m' = m ++ m'' := by
  have hlength : m.length ≤ m'.length := by
    have := hy.length
    have := hz.length
    omega
  have hprefix : m <+: m' :=
    List.prefix_of_prefix_length_le ⟨y.rest, hy.rest.symm⟩ ⟨z.rest, hz.rest.symm⟩ hlength
  obtain ⟨m'', rfl⟩ := hprefix
  refine ⟨m'', ⟨?_, ?_⟩, rfl⟩
  · have h := hy.rest.symm.trans hz.rest
    rw [List.append_assoc] at h
    exact List.append_cancel_left h
  · rw [hz.prev, hy.prev, List.getLast?_append, Option.or_assoc]

end Spot

/-! ## The loop -/

variable {γ : Type} (f : Spot → Option (γ × Spot))

/-- The matches from a place on, none overlapping another, with where they start and end. The
number bounds the length of what follows. -/
def scanFrom : ℕ → Spot → List (Spot × γ × Spot)
  | 0, _ => []
  | n + 1, x =>
    match x.rest, f x with
    | [], _ => []
    | _ :: _, some (captured, y) => (x, captured, y) :: scanFrom n y
    | c :: cs, none => scanFrom n ⟨some c, cs⟩

/-- The matches in a text. -/
def scan (text : List Char) : List (Spot × γ × Spot) := scanFrom f text.length (.start text)

/-- A match reads some of the text. -/
def Reads : Prop := ∀ x captured y, f x = some (captured, y) → ∃ m ≠ [], x.Leads m y

variable {f} {n : ℕ} {x z y : Spot} {m : List Char} {captured : γ}

/-- **What is found** matches, at a place of the text. -/
theorem mem_scanFrom (hf : Reads f) (h : (z, captured, y) ∈ scanFrom f n x) :
    f z = some (captured, y) ∧ ∃ m, x.Leads m z := by
  induction n generalizing x with
  | zero => cases h
  | succ n ih =>
    obtain ⟨prev, rest⟩ := x
    rw [scanFrom] at h
    cases rest with
    | nil => cases h
    | cons c cs =>
      cases hmatch : f ⟨prev, c :: cs⟩ with
      | some found =>
        obtain ⟨captured', y'⟩ := found
        simp only [hmatch, List.mem_cons, Prod.mk.injEq] at h
        rcases h with ⟨rfl, rfl, rfl⟩ | h
        · exact ⟨hmatch, [], .refl _⟩
        · obtain ⟨m, -, hm⟩ := hf _ _ _ hmatch
          obtain ⟨hz, m', hm'⟩ := ih h
          exact ⟨hz, _, hm.trans hm'⟩
      | none =>
        simp only [hmatch] at h
        obtain ⟨hz, m', hm'⟩ := ih h
        exact ⟨hz, _, (Spot.leads_cons prev c cs).trans hm'⟩

/-- **Nothing is overlooked**: where the pattern matches, a match was found that starts there
or before and ends behind. -/
theorem exists_mem_scanFrom (hf : Reads f) (hn : x.rest.length ≤ n) (hxz : x.Leads m z)
    (hz : (f z).isSome = true) :
    ∃ z' captured y, (z', captured, y) ∈ scanFrom f n x ∧ (∃ m', z'.Leads m' z) ∧
      y.rest.length < z.rest.length := by
  induction n generalizing x m with
  | zero =>
    -- nothing follows, and a match reads something
    obtain ⟨⟨captured, y⟩, hy⟩ := Option.isSome_iff_exists.mp hz
    obtain ⟨m', hm', hread⟩ := hf _ _ _ hy
    have hlength := hread.length
    have hpos := List.length_pos_iff.mpr hm'
    have := hxz.length
    omega
  | succ n ih =>
    obtain ⟨prev, rest⟩ := x
    cases rest with
    | nil =>
      obtain ⟨⟨captured, y⟩, hy⟩ := Option.isSome_iff_exists.mp hz
      obtain ⟨m', hm', hread⟩ := hf _ _ _ hy
      have hlength := hread.length
      have hpos := List.length_pos_iff.mpr hm'
      have := hxz.length
      simp only [List.length_nil] at this
      omega
    | cons c cs =>
      rw [scanFrom]
      cases hmatch : f ⟨prev, c :: cs⟩ with
      | some found =>
        obtain ⟨captured, y⟩ := found
        obtain ⟨m', hne, hread⟩ := hf _ _ _ hmatch
        rcases Nat.lt_or_ge y.rest.length z.rest.length with hbehind | hbefore
        · exact ⟨_, captured, y, List.mem_cons_self, ⟨m, hxz⟩, hbehind⟩
        · obtain ⟨m'', hyz, -⟩ := hread.of_length_le hxz hbefore
          have hpos := List.length_pos_iff.mpr hne
          have hlength := hread.length
          obtain ⟨z', captured', y', hmem, h⟩ := ih (by omega) hyz
          exact ⟨z', captured', y', List.mem_cons_of_mem _ hmem, h⟩
      | none =>
        cases m with
        | nil =>
          -- the pattern does match here
          obtain rfl : (⟨prev, c :: cs⟩ : Spot) = z := Spot.ext hxz.prev.symm hxz.rest
          rw [hmatch] at hz
          cases hz
        | cons d m =>
          obtain ⟨m'', hyz, -⟩ := (Spot.leads_cons prev c cs).of_length_le hxz (by
            have := hxz.length
            simp only [List.length_cons] at this ⊢
            omega)
          exact ih (by simpa using hn) hyz

/-! ## Patterns -/

namespace Regex

variable {U : CharClass} {r : Regex} {p : Char → Bool}

theorem leads_of_mem_starEnds {f : Spot → List Spot} (hf : ∀ {x y}, y ∈ f x → ∃ m, x.Leads m y)
    {n : ℕ} : ∀ {x y : Spot}, y ∈ starEnds f n x → ∃ m, x.Leads m y := by
  induction n with
  | zero =>
    intro x y h
    obtain rfl := List.mem_singleton.mp h
    exact ⟨[], .refl y⟩
  | succ n ih =>
    intro x y h
    rcases List.mem_append.mp h with h | h
    · obtain ⟨z, hz, hy⟩ := List.mem_flatMap.mp h
      obtain ⟨m, hm⟩ := hf (List.mem_of_mem_filter hz)
      obtain ⟨m', hm'⟩ := ih hy
      exact ⟨_, hm.trans hm'⟩
    · obtain rfl := List.mem_singleton.mp h
      exact ⟨[], .refl y⟩

/-- An end of a match is a later place. -/
theorem leads_of_mem_ends : ∀ {r : Regex} {x y : Spot}, y ∈ ends U r x → ∃ m, x.Leads m y
  | .one p, ⟨prev, []⟩, y, h => absurd h List.not_mem_nil
  | .one p, ⟨prev, c :: cs⟩, y, h => by
    simp only [ends] at h
    obtain rfl : y = ⟨some c, cs⟩ := by
      split at h
      · exact List.mem_singleton.mp h
      · exact absurd h List.not_mem_nil
    exact ⟨[c], Spot.leads_cons prev c cs⟩
  | .seq r s, x, y, h => by
    obtain ⟨z, hz, hy⟩ := List.mem_flatMap.mp h
    obtain ⟨m, hm⟩ := leads_of_mem_ends hz
    obtain ⟨m', hm'⟩ := leads_of_mem_ends hy
    exact ⟨_, hm.trans hm'⟩
  | .opt r, x, y, h => by
    rcases List.mem_append.mp h with h | h
    · exact leads_of_mem_ends h
    · obtain rfl := List.mem_singleton.mp h
      exact ⟨[], .refl y⟩
  | .star r, x, y, h => leads_of_mem_starEnds (fun h => leads_of_mem_ends h) h
  | .bound, x, y, h => by
    rw [ends] at h
    split at h
    · obtain rfl := List.mem_singleton.mp h
      exact ⟨[], .refl y⟩
    · exact absurd h List.not_mem_nil

/-- What lies between is in the language of the pattern. -/
theorem leads_lang_of_mem_ends {x y : Spot} (h : y ∈ ends U r x) :
    ∃ m, x.Leads m y ∧ Lang r m := by
  obtain ⟨m, hm⟩ := leads_of_mem_ends h
  obtain ⟨m', hrest, hlang⟩ := lang_of_mem_ends h
  obtain rfl : m = m' := List.append_cancel_right (hm.rest.symm.trans hrest)
  exact ⟨m, hm, hlang⟩

/-- The characters of a pattern. -/
def Within (p : Char → Bool) : Regex → Prop
  | .one q => ∀ c, q c = true → p c = true
  | .seq r s => Within p r ∧ Within p s
  | .opt r => Within p r
  | .star r => Within p r
  | .bound => True

/-- A text of the language is made of them. -/
theorem all_of_lang : ∀ {r : Regex} {m : List Char}, r.Within p → Lang r m → ∀ c ∈ m, p c = true
  | .one q, m, hr, ⟨c, hm, hc⟩ => by
    subst hm
    intro d hd
    obtain rfl := List.mem_singleton.mp hd
    exact hr d hc
  | .seq r s, m, hr, ⟨m₁, m₂, hm, h₁, h₂⟩ => by
    subst hm
    intro c hc
    rcases List.mem_append.mp hc with hc | hc
    · exact all_of_lang hr.1 h₁ c hc
    · exact all_of_lang hr.2 h₂ c hc
  | .opt r, m, hr, h => by
    rcases h with h | rfl
    · exact all_of_lang (r := r) hr h
    · exact fun c hc => absurd hc List.not_mem_nil
  | .star r, m, hr, ⟨ms, hm, hall⟩ => by
    subst hm
    intro c hc
    obtain ⟨m, hm, hc⟩ := List.mem_flatten.mp hc
    exact all_of_lang (r := r) hr (hall m hm) c hc
  | .bound, m, _, hm => by
    obtain rfl : m = [] := hm
    exact fun c hc => absurd hc List.not_mem_nil

/-- What may be left out can be left out. -/
theorem self_mem_ends_opt (x : Spot) : x ∈ ends U (.opt r) x :=
  List.mem_append_right _ (List.mem_singleton.mpr rfl)

theorem self_mem_ends_star (x : Spot) : x ∈ ends U (.star r) x := by
  rw [ends]
  cases x.rest.length with
  | zero => exact List.mem_singleton.mpr rfl
  | succ n => exact List.mem_append_right _ (List.mem_singleton.mpr rfl)

theorem mem_ends_seq {s : Regex} {x y : Spot} :
    y ∈ ends U (.seq r s) x ↔ ∃ z ∈ ends U r x, y ∈ ends U s z :=
  List.mem_flatMap

theorem mem_ends_bound {x y : Spot} : y ∈ ends U .bound x ↔ y = x ∧ atBoundary U x = true := by
  rw [ends]
  split
  · rename_i h
    simp [h]
  · rename_i h
    simp [h]

/-- Repetitions of one character reach the end of a run. -/
theorem mem_ends_star_one {run : List Char} (hrun : ∀ c ∈ run, p c = true) {x y : Spot}
    (hxy : x.Leads run y) : y ∈ ends U (.star (.one p)) x := by
  have hloop : ∀ {run : List Char} {n : ℕ} {x : Spot}, run.length ≤ n → (∀ c ∈ run, p c = true) →
      x.Leads run y → y ∈ starEnds (ends U (.one p)) n x := by
    intro run
    induction run with
    | nil =>
      intro n x _ _ hxy
      obtain rfl := Spot.leads_nil_iff.mp hxy
      cases n with
      | zero => exact List.mem_singleton.mpr rfl
      | succ n => exact List.mem_append_right _ (List.mem_singleton.mpr rfl)
    | cons c run ih =>
      intro n x hn hrun hxy
      obtain ⟨hc, hrun⟩ := List.forall_mem_cons.mp hrun
      obtain ⟨prev, rest⟩ := x
      obtain rfl : rest = c :: (run ++ y.rest) := hxy.rest
      cases n with
      | zero => simp at hn
      | succ n =>
        refine List.mem_append_left _ (List.mem_flatMap.mpr ⟨⟨some c, run ++ y.rest⟩, ?_, ?_⟩)
        · simp [ends, hc]
        · exact ih (by simpa using hn) hrun (Spot.leads_cons_iff.mp hxy).2
  exact hloop (by have := hxy.length; omega) hrun hxy

end Regex

/-- A pattern as a matcher that captures nothing. -/
def firstEnd (U : CharClass) (r : Regex) (x : Spot) : Option (Unit × Spot) :=
  (r.ends U x).head?.map fun y => ((), y)

/-- `re.findall` gives the texts of the matches. -/
theorem findAll_eq_map_scan (U : CharClass) (r : Regex) (text : List Char) :
    Regex.findAll U r text = (scan (firstEnd U r) text).map fun (x, _, y) => x.upTo y := by
  have hloop : ∀ (n : ℕ) (x : Spot), Regex.findAllFrom U r n x =
      (scanFrom (firstEnd U r) n x).map fun (x, _, y) => x.upTo y := by
    intro n
    induction n with
    | zero => exact fun _ => rfl
    | succ n ih =>
      rintro ⟨prev, rest⟩
      cases rest with
      | nil => rw [Regex.findAllFrom, scanFrom]; rfl
      | cons c cs =>
        rw [Regex.findAllFrom, scanFrom]
        cases hend : (r.ends U ⟨prev, c :: cs⟩).head? with
        | none => simp [firstEnd, hend, ih]
        | some y => simp [firstEnd, hend, ih]
  exact hloop _ _

end FinanceIntelligence
