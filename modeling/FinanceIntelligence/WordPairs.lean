import FinanceIntelligence.GroupPatterns
import FinanceIntelligence.Occurrences

/-!
# Pairs of words

A pattern for two words with blanks between them, such as a month and a year. If a word of
the one kind never starts like a word of the other one, no match overlaps another, and so a
scan finds exactly the pairs that stand in the text with no word character at their ends
(`FindsPairs.mem_finditer_iff`).
-/

namespace FinanceIntelligence

/-- No word character touches the place from either side. -/
def apartFromWords (U : CharClass) (before after : List Char) : Bool :=
  !before.getLast?.any U.word && !after.head?.any U.word

/-- A text that starts with characters of a class, and goes on with another one, does so in one
way. -/
theorem append_inj_of_class {p : Char → Bool} {s s' t t' : List Char}
    (hs : ∀ c ∈ s, p c = true) (hs' : ∀ c ∈ s', p c = true) (ht : t.head?.any p = false)
    (ht' : t'.head?.any p = false) (h : s ++ t = s' ++ t') : s = s' ∧ t = t' := by
  have hspan : ∀ {s t : List Char}, (∀ c ∈ s, p c = true) → t.head?.any p = false →
      (s ++ t).takeWhile p = s := by
    intro s t hs ht
    rw [List.takeWhile_append_of_pos hs]
    cases t with
    | nil => simp
    | cons c t => rw [List.takeWhile_cons_of_neg (by simpa using ht), List.append_nil]
  have hfirst : s = s' := by rw [← hspan hs ht, h, hspan hs' ht']
  subst hfirst
  exact ⟨rfl, List.append_cancel_left h⟩

namespace Regex

variable {U : CharClass} {x : Spot} {c : Char}

theorem atBoundary_iff_prev (hrest : x.rest.head? = some c) (hc : U.word c = true) :
    atBoundary U x = true ↔ x.prev.any U.word = false := by
  rw [atBoundary, hrest]
  simp [hc]

theorem atBoundary_iff_next (hprev : x.prev = some c) (hc : U.word c = true) :
    atBoundary U x = true ↔ x.rest.head?.any U.word = false := by
  rw [atBoundary, hprev]
  simp [hc]

end Regex

variable {γ : Type} {U : CharClass} {A B : List Char → Prop} {g : List Char → List Char → γ}
  {p : Pattern γ}

/-- The pattern matches a word of one kind, blanks and a word of another kind. -/
structure FindsPairs (U : CharClass) (A B : List Char → Prop) (g : List Char → List Char → γ)
    (p : Pattern γ) : Prop where
  /-- the ways to match -/
  mem_iff : ∀ {x y : Spot} {a : γ}, (a, y) ∈ p x ↔ ∃ u b v, a = g u v ∧ A u ∧ B v ∧ b ≠ [] ∧
    (∀ c ∈ b, U.space c = true) ∧ x.Leads (u ++ (b ++ v)) y ∧ Regex.atBoundary U x = true ∧
      Regex.atBoundary U y = true
  /-- the first word -/
  left : ∀ {u}, A u → u ≠ [] ∧ ∀ c ∈ u, U.word c = true
  /-- the second word -/
  right : ∀ {v}, B v → v ≠ [] ∧ ∀ c ∈ v, U.word c = true
  /-- they start differently -/
  differ : ∀ {u v}, A u → B v → u.head? ≠ v.head?
  /-- no word character is a blank -/
  space_of_word : ∀ {c}, U.word c = true → U.space c = false

namespace FindsPairs

variable (h : FindsPairs U A B g p)

include h

theorem advances : Pattern.Advances p := by
  intro x a y hmem
  obtain ⟨u, b, v, -, hu, -, -, -, hleads, -⟩ := h.mem_iff.mp hmem
  exact ⟨_, List.append_ne_nil_of_left_ne_nil (h.left hu).1 _, hleads⟩

/-- What is left of a pair, behind something that is no word character, is its second word. -/
theorem rest_eq_right {u b v w r : List Char} (hu : ∀ c ∈ u, U.word c = true)
    (hb : ∀ c ∈ b, U.space c = true) (hv : ∀ c ∈ v, U.word c = true)
    (heq : u ++ (b ++ v) = w ++ r) (hw : w ≠ []) (hlast : w.getLast?.any U.word = false)
    (hhead : r.head?.any U.word = true) : r = v := by
  -- a part of a word does not end like `w`
  have hword : ∀ {s t : List Char}, t ≠ [] → (s ++ t).getLast?.any U.word = false →
      ¬ ∀ c ∈ t, U.word c = true := by
    intro s t ht hst hall
    rw [List.getLast?_append_of_ne_nil _ ht, List.getLast?_eq_some_getLast ht] at hst
    simp [hall _ (List.getLast_mem ht)] at hst
  rcases List.append_eq_append_iff.mp heq with ⟨s, rfl, hs⟩ | ⟨s, rfl, rfl⟩
  · rcases eq_or_ne s [] with rfl | hne
    · rw [List.append_nil] at hlast hw
      exact absurd hu (hword (s := []) hw hlast)
    rcases List.append_eq_append_iff.mp hs with ⟨t, rfl, rfl⟩ | ⟨t, rfl, rfl⟩
    · rcases eq_or_ne t [] with rfl | ht
      · rfl
      · rw [← List.append_assoc] at hlast
        exact absurd (fun c hc => hv c (List.mem_append_left _ hc)) (hword ht hlast)
    · cases t with
      | nil => rfl
      | cons c t =>
        have hspace := h.space_of_word (c := c) (by simpa using hhead)
        rw [hb c (by simp)] at hspace
        cases hspace
  · exact absurd (fun c hc => hu c (List.mem_append_left _ hc)) (hword (s := []) hw hlast)

/-- A pair ends at boundaries if no word character touches it. -/
theorem boundaries_iff {x y : Spot} {u b v : List Char} (hu : A u) (hv : B v)
    (hleads : x.Leads (u ++ (b ++ v)) y) :
    (Regex.atBoundary U x = true ∧ Regex.atBoundary U y = true) ↔
      x.prev.any U.word = false ∧ y.rest.head?.any U.word = false := by
  obtain ⟨hune, huword⟩ := h.left hu
  obtain ⟨hvne, hvword⟩ := h.right hv
  refine and_congr ?_ ?_
  · obtain ⟨c, u, rfl⟩ := List.exists_cons_of_ne_nil hune
    exact Regex.atBoundary_iff_prev (by rw [hleads.rest]; rfl) (huword c List.mem_cons_self)
  · refine Regex.atBoundary_iff_next ?_ (hvword _ (List.getLast_mem hvne))
    rw [hleads.prev, ← List.append_assoc, List.getLast?_append_of_ne_nil _ hvne,
      List.getLast?_eq_some_getLast hvne]
    rfl

/-- A pair that starts before another one, and reaches over its start, would end in its first
word. -/
theorem nil_of_reaches {x y z : Spot} {u b v u' b' v' w after : List Char} (hu : A u) (hu' : A u')
    (hv' : B v') (hspace' : ∀ c ∈ b', U.space c = true) (hprev : z.prev.any U.word = false)
    (hrest : z.rest = u ++ (b ++ v) ++ after) (hleads : x.Leads (u' ++ (b' ++ v')) y)
    (hw : x.Leads w z) (hlength : y.rest.length < z.rest.length) : w = [] := by
  by_contra hne
  obtain ⟨r, hr, heq⟩ := hw.of_length_le hleads (Nat.le_of_lt hlength)
  have hlast : w.getLast?.any U.word = false := by
    have := hw.prev
    rw [List.getLast?_eq_some_getLast hne] at this ⊢
    rw [Option.some_or] at this
    exact this ▸ hprev
  have hrne : r ≠ [] := by
    rintro rfl
    exact absurd hlength (by rw [hr.rest, List.nil_append]; exact Nat.lt_irrefl _)
  have hhead : r.head? = u.head? := by
    have := hrest.symm.trans hr.rest
    obtain ⟨c, u, rfl⟩ := List.exists_cons_of_ne_nil (h.left hu).1
    obtain ⟨d, r, rfl⟩ := List.exists_cons_of_ne_nil hrne
    exact congrArg some (List.cons.inj this).1.symm
  have hrv := h.rest_eq_right (h.left hu').2 hspace' (h.right hv').2 heq hne hlast (by
    rw [hhead]
    obtain ⟨c, u, rfl⟩ := List.exists_cons_of_ne_nil (h.left hu).1
    exact (h.left hu).2 c List.mem_cons_self)
  exact h.differ hu hv' (by rw [← hrv, hhead])

/-- At one place there is one pair. -/
theorem eq_of_append_eq {u b v s u' b' v' s' : List Char} (hu : A u) (hu' : A u') (hv : B v)
    (hv' : B v') (hb : b ≠ []) (hb' : b' ≠ []) (hspace : ∀ c ∈ b, U.space c = true)
    (hspace' : ∀ c ∈ b', U.space c = true) (hs : s.head?.any U.word = false)
    (hs' : s'.head?.any U.word = false) (heq : u ++ (b ++ v) ++ s = u' ++ (b' ++ v') ++ s') :
    u = u' ∧ v = v' := by
  have hfirst : ∀ {b v s : List Char}, b ≠ [] → (∀ c ∈ b, U.space c = true) →
      ((b ++ v) ++ s).head?.any U.word = false := by
    intro b v s hb hspace
    obtain ⟨c, b, rfl⟩ := List.exists_cons_of_ne_nil hb
    have hc : U.space c = true := hspace c List.mem_cons_self
    cases hword : U.word c with
    | false => simpa using hword
    | true => rw [h.space_of_word hword] at hc; cases hc
  have hsecond : ∀ {v s : List Char}, B v → (v ++ s).head?.any U.space = false := by
    intro v s hv
    obtain ⟨c, v, rfl⟩ := List.exists_cons_of_ne_nil (h.right hv).1
    simpa using h.space_of_word ((h.right hv).2 c List.mem_cons_self)
  rw [List.append_assoc, List.append_assoc u'] at heq
  obtain ⟨rfl, hblanks⟩ := append_inj_of_class (h.left hu).2 (h.left hu').2 (hfirst hb hspace)
    (hfirst hb' hspace') heq
  rw [List.append_assoc, List.append_assoc] at hblanks
  obtain ⟨-, hwords⟩ := append_inj_of_class hspace hspace' (hsecond hv) (hsecond hv') hblanks
  obtain ⟨rfl, -⟩ := append_inj_of_class (h.right hv).2 (h.right hv').2 hs hs' hwords
  exact ⟨rfl, rfl⟩

/-- **A scan finds** exactly the pairs that stand apart in the text. -/
theorem mem_finditer_iff {text : List Char} {a : γ} :
    a ∈ p.finditer text ↔ ∃ u b v, a = g u v ∧ A u ∧ B v ∧ b ≠ [] ∧
      (∀ c ∈ b, U.space c = true) ∧ StandsIn (apartFromWords U) (u ++ (b ++ v)) text := by
  constructor
  · intro ha
    obtain ⟨m, x, y, hx, hmem⟩ := Pattern.mem_finditer h.advances ha
    obtain ⟨u, b, v, rfl, hu, hv, hb, hspace, hleads, hstart, hstop⟩ := h.mem_iff.mp hmem
    refine ⟨u, b, v, rfl, hu, hv, hb, hspace, m, y.rest, ?_, ?_⟩
    · rw [List.append_assoc, ← hleads.rest]
      exact hx.rest.symm
    · obtain ⟨hprev, hnext⟩ := (h.boundaries_iff hu hv hleads).mp ⟨hstart, hstop⟩
      have hm : x.prev = m.getLast? := hx.prev.trans Option.or_none
      rw [apartFromWords, ← hm, hprev, hnext]
      rfl
  · rintro ⟨u, b, v, rfl, hu, hv, hb, hspace, before, after, rfl, hapart⟩
    simp only [apartFromWords, Bool.and_eq_true, Bool.not_eq_true'] at hapart
    rw [List.append_assoc]
    set z : Spot := ⟨before.getLast?, u ++ (b ++ v) ++ after⟩ with hz
    obtain ⟨y, hleads⟩ : ∃ y, z.Leads (u ++ (b ++ v)) y := ⟨⟨_, after⟩, rfl, rfl⟩
    have hafter : y.rest = after := (List.append_cancel_left hleads.rest).symm
    have hstop : y.rest.head?.any U.word = false := by
      rw [hafter]
      exact hapart.2
    have hbounds := (h.boundaries_iff hu hv hleads).mpr ⟨hapart.1, hstop⟩
    have hmem : (g u v, y) ∈ p z :=
      h.mem_iff.mpr ⟨u, b, v, rfl, hu, hv, hb, hspace, hleads, hbounds⟩
    obtain ⟨a', y', ha', hmem'⟩ := Pattern.exists_mem_finditer_at h.advances
      (Spot.leads_start before _) hmem fun _ hfound hw hlength => by
        obtain ⟨u', b', v', rfl, hu', hv', -, hspace', hleads', -⟩ := h.mem_iff.mp hfound
        exact h.nil_of_reaches hu hu' hv' hspace' hapart.1 rfl hleads' hw hlength
    obtain ⟨u', b', v', rfl, hu', hv', hb', hspace', hleads', hbounds'⟩ := h.mem_iff.mp hmem'
    obtain ⟨rfl, rfl⟩ := h.eq_of_append_eq hu hu' hv hv' hb hb' hspace hspace' hstop
      ((h.boundaries_iff hu' hv' hleads').mp hbounds').2 (hleads.rest.symm.trans hleads'.rest)
    exact ha'

end FindsPairs

end FinanceIntelligence
