import FinanceIntelligence.Redaction
import Mathlib.Data.List.Chain

/-!
# What the passes of the redaction take

* `uri_replaced` — the first pass takes the **password** of a connection URI, or at least a
  character of the URI;
* `sign_of_replaced` — what it takes reaches up to an **at sign**;
* `entry_replaced` — the second pass takes the **value** that stands directly behind a name and a
  separator, whatever surrounds them;
* `UriAt`, `EntryAt`, `BearerAt` — where a pass has **something to take**; elsewhere all is kept.
-/

namespace FinanceIntelligence

namespace Redaction

open Pattern

/-! ## Letters and blanks -/

/-- A letter of the words, in any case. -/
def isLetter (c : Char) : Bool := (foldCase c).isLower

theorem isLetter_cases {c : Char} (h : isLetter c = true) :
    c = 'ſ' ∨ c = '\u212a' ∨ c = 'ı' ∨ c = 'İ' ∨ (65 ≤ c.toNat ∧ c.toNat ≤ 90) ∨
      (97 ≤ c.toNat ∧ c.toNat ≤ 122) := by
  rw [isLetter, foldCase] at h
  split at h
  · exact .inl ‹_›
  split at h
  · exact .inr (.inl ‹_›)
  split at h
  case isTrue hc =>
    rcases hc with hc | hc
    · exact .inr (.inr (.inl hc))
    · exact .inr (.inr (.inr (.inl hc)))
  refine .inr (.inr (.inr (.inr ?_)))
  rcases toLower_cases c with ⟨hge, hle, -⟩ | ⟨-, hsame⟩
  · exact .inl ⟨hge, hle⟩
  · rw [hsame] at h
    exact .inr (toNat_of_isLower h)

/-- A letter is no blank. -/
theorem isSpace_of_isLetter {c : Char} (h : isLetter c = true) : isSpace c = false := by
  rcases isLetter_cases h with rfl | rfl | rfl | rfl | h | h
  · decide
  · decide
  · decide
  · decide
  · simp only [isSpace, Bool.or_eq_false_iff, Bool.and_eq_false_iff, decide_eq_false_iff_not,
      beq_eq_false_iff_ne]
    omega
  · simp only [isSpace, Bool.or_eq_false_iff, Bool.and_eq_false_iff, decide_eq_false_iff_not,
      beq_eq_false_iff_ne]
    omega

theorem isSpace_of_isSeparator {c : Char} (h : isSeparator c = true) : isSpace c = false := by
  rw [isSeparator, Bool.or_eq_true, beq_iff_eq, beq_iff_eq] at h
  rcases h with rfl | rfl <;> decide

theorem isLetter_of_isSeparator {c : Char} (h : isSeparator c = true) : isLetter c = false := by
  rw [isSeparator, Bool.or_eq_true, beq_iff_eq, beq_iff_eq] at h
  rcases h with rfl | rfl <;> decide

theorem isLetter_of_isSpace {c : Char} (h : isSpace c = true) : isLetter c = false := by
  by_contra hne
  rw [isSpace_of_isLetter (Bool.not_eq_false _ ▸ hne)] at h
  cases h

/-- What holds of the first character. -/
theorem forall_head_cons {P : Char → Prop} {c : Char} {l : List Char} (h : P c) :
    ∀ d ∈ (c :: l).head?, P d := by
  rintro d hd
  obtain rfl := Option.some.inj hd
  exact h

/-- A run of one class ends where a character of another one stands, or the text ends. -/
theorem run_inj {p : Char → Bool} {x x' l l' : List Char} (hx : ∀ a ∈ x, p a = true)
    (hx' : ∀ a ∈ x', p a = true) (hl : ∀ c ∈ l.head?, p c = false)
    (hl' : ∀ c ∈ l'.head?, p c = false) (h : x ++ l = x' ++ l') : x = x' ∧ l = l' := by
  have hend : ∀ {l : List Char}, (∀ c ∈ l.head?, p c = false) → l.takeWhile p = [] := by
    intro l hl
    cases l with
    | nil => rfl
    | cons c l => exact List.takeWhile_cons_of_neg (by simp [hl c rfl])
  have htake := congrArg (List.takeWhile p) h
  rw [List.takeWhile_append_of_pos hx, List.takeWhile_append_of_pos hx', hend hl, hend hl',
    List.append_nil, List.append_nil] at htake
  subst htake
  exact ⟨rfl, List.append_cancel_left h⟩

/-! ## Words -/

theorem isLower_secretWords : ∀ w ∈ secretWords, ∀ a ∈ w, a.isLower = true := by
  intro w hw a ha
  have hall : (secretWords.all fun w => w.all Char.isLower) = true := by decide +kernel
  exact List.all_eq_true.mp (List.all_eq_true.mp hall w hw) a ha

theorem IsWord.letters {name : List Char} (h : IsWord name) : ∀ c ∈ name, isLetter c = true :=
  fun _ hc => isLower_secretWords _ h _ (List.mem_map_of_mem hc)

theorem IsWord.ne_nil {name : List Char} (h : IsWord name) : name ≠ [] := by
  rintro rfl
  have hnot : ([] : List Char) ∉ secretWords := by decide
  exact hnot h

/-- No word ends with another one. -/
theorem IsWord.eq_of_append {u name : List Char} (h : IsWord (u ++ name)) (h' : IsWord name) :
    u = [] := by
  have hends : (secretWords.all fun w => secretWords.all fun w' =>
      !(w'.isSuffixOf w) || w' == w) = true := by decide +kernel
  have hword := List.all_eq_true.mp (List.all_eq_true.mp hends _ h) _ h'
  rw [List.map_append, Bool.or_eq_true, Bool.not_eq_true', beq_iff_eq] at hword
  rcases hword with hword | hword
  · rw [List.isSuffixOf_iff_suffix.mpr (List.suffix_append _ _)] at hword
    cases hword
  · exact List.map_eq_nil_iff.mp (List.self_eq_append_left.mp hword)

/-! ## The first pass -/

section Uris

variable {A B user password : List Char}

theorem kept_uriEdits (user password : List Char) :
    Edit.kept (uriEdits (user, password)) = List.replicate (user.length + 4) true ++
      (List.replicate password.length false ++ [true]) := by
  simp only [uriEdits, Edit.kept_append, Edit.kept_keeps, Edit.kept_swap, List.length_append,
    List.append_assoc]
  congr 2
  exact Nat.add_right_comm 3 user.length 1 ▸ by omega

/-- What is taken of a match. -/
theorem replaced_of_uri {before after : List (Edit Char)} {x z y : Spot} {i : ℕ}
    (h : MatchIn uriPattern.matchAt uriEdits x before z (user, password) y after)
    (hlow : user.length + 4 ≤ i) (hhigh : i < user.length + 4 + password.length) :
    (Edit.kept (rewriteAt uriPattern.matchAt uriEdits x))[(Edit.source before).length + i]? =
      some false := by
  rw [h.rewriting, Edit.kept_append, Edit.kept_append, kept_uriEdits, List.append_assoc,
    List.getElem?_append_right (by simp), Edit.length_kept, Nat.add_sub_cancel_left,
    List.append_assoc, List.getElem?_append_right (by simpa using hlow), List.length_replicate,
    List.append_assoc, List.getElem?_append_left (by rw [List.length_replicate]; omega),
    List.getElem?_replicate, if_pos (by omega)]

/-- A colon of a text is in the first part, ends it or comes behind. -/
theorem colon_cases {u user' : List Char} {X Y : List Char} (hcolon : ':' ∉ user')
    (h : u ++ ':' :: X = user' ++ ':' :: Y) :
    ∃ v, (v = [] ∨ ∃ v', v = v' ++ [':']) ∧ u.length = user'.length + v.length ∧ v ++ X = Y := by
  rcases List.append_eq_append_iff.mp h with ⟨a, rfl, ha⟩ | ⟨c, rfl, hc⟩
  · cases a with
    | nil => exact ⟨[], .inl rfl, by simp, (List.cons.inj ha).2⟩
    | cons d a =>
      obtain ⟨rfl, -⟩ := List.cons.inj ha
      exact absurd (List.mem_append_right u List.mem_cons_self) hcolon
  · cases c with
    | nil => exact ⟨[], .inl rfl, by simp, (List.cons.inj hc).2.symm⟩
    | cons d c =>
      obtain ⟨rfl, hY⟩ := List.cons.inj hc
      refine ⟨c ++ [':'], .inr ⟨c, rfl⟩, by simp, ?_⟩
      rw [List.append_assoc, List.singleton_append]
      exact hY.symm

/-- A connection URI that starts inside of another one starts in its password, or right at the
colon in front of it. -/
theorem uri_inside {u user' password' rest : List Char} (h' : IsUri user' password')
    (heq : u ++ (uriText user password ++ B) = uriText user' password' ++ rest) (hne : u ≠ [])
    (hlt : u.length < (uriText user' password').length) :
    ∃ v w, u.length + 1 = user'.length + 4 + v.length ∧ password' = v ++ '/' :: '/' :: w ∧
      user ++ ':' :: (password ++ '@' :: B) = w ++ '@' :: rest := by
  have heq : u ++ ':' :: '/' :: '/' :: (user ++ ':' :: (password ++ '@' :: B)) =
      ':' :: '/' :: '/' :: (user' ++ ':' :: (password' ++ '@' :: rest)) := by
    simpa [uriText] using heq
  have hlt : u.length < user'.length + password'.length + 5 := by
    simp [uriText] at hlt
    omega
  rcases u with _ | ⟨a, _ | ⟨b, _ | ⟨c, u⟩⟩⟩
  · exact absurd rfl hne
  · simp at heq
  · simp at heq
  · have heq : u ++ ':' :: '/' :: '/' :: (user ++ ':' :: (password ++ '@' :: B)) =
        user' ++ ':' :: (password' ++ '@' :: rest) := by
      simp only [List.cons_append, List.cons.injEq] at heq
      exact heq.2.2.2
    obtain ⟨v, hv, hlength, hrest⟩ := colon_cases h'.colon heq
    simp only [List.length_cons] at hlt ⊢
    rcases List.append_eq_append_iff.mp hrest with ⟨w, hw, hX⟩ | ⟨c', hc', hrest'⟩
    · -- the slashes belong to the password
      rcases w with _ | ⟨a, _ | ⟨b, w⟩⟩
      · simp at hX
      · simp at hX
      · simp only [List.cons_append, List.cons.injEq] at hX
        obtain ⟨rfl, rfl, hX⟩ := hX
        exact ⟨v, w, by omega, hw, hX⟩
    · -- the colon is no at sign
      exfalso
      cases c' with
      | nil => simp at hrest'
      | cons d c' =>
        simp only [List.cons_append, List.cons.injEq] at hrest'
        obtain ⟨rfl, -⟩ := hrest'
        have hvlength := congrArg List.length hc'
        simp only [List.length_append, List.length_cons] at hvlength
        obtain rfl : c' = [] := List.eq_nil_of_length_eq_zero (by omega)
        rcases hv with rfl | ⟨v', rfl⟩
        · simp at hc'
        · have hlast := congrArg List.getLast? hc'
          simp at hlast

/-- The place of a text in a longer one. -/
theorem eq_of_leads {x z : Spot} {m m' : List Char} (h : x.Leads m z) (h' : x.Leads m' z) :
    m = m' :=
  List.append_cancel_right (h.rest.symm.trans h'.rest)

/-- **What the first pass takes** of a connection URI: the password, or else the first slash, if
the user has an at sign. -/
theorem uri_replaced (h : IsUri user password) {text : List Char}
    (htext : text = A ++ (uriText user password ++ B)) :
    ((Edit.kept (redactUris text))[A.length + 1]? = some false ∧ '@' ∈ user) ∨
      ∀ i < password.length,
        (Edit.kept (redactUris text))[A.length + (user.length + 4 + i)]? = some false := by
  subst htext
  have hz := Spot.leads_start A (uriText user password ++ B)
  have hmatch : (uriPattern.matchAt ⟨A.getLast?, uriText user password ++ B⟩).isSome = true := by
    rw [matchAt_uriPattern_iff (y := ⟨(uriText user password).getLast?.or A.getLast?, B⟩) |>.mpr
      ⟨⟨rfl, rfl⟩, h⟩]
    rfl
  obtain ⟨before, z', ⟨user', password'⟩, y, after, hin, ⟨u, hu⟩, hbehind⟩ :=
    exists_rewrite_of_match rewrites_uri hz hmatch
  obtain rfl : A = Edit.source before ++ u := eq_of_leads hz (hin.leads.trans hu)
  obtain ⟨hleads, h'⟩ := matchAt_uriPattern_iff.mp hin.found
  have heq : u ++ (uriText user password ++ B) = uriText user' password' ++ y.rest :=
    hu.rest.symm.trans hleads.rest
  have hlt : u.length < (uriText user' password').length := by
    have hlength := congrArg List.length heq
    simp only [List.length_append] at hlength hbehind
    omega
  by_cases hne : u = []
  · -- the URI itself was found
    subst hne
    obtain ⟨rfl, rfl, -⟩ := uriText_append_inj h h' heq
    refine .inr fun i hi => ?_
    rw [List.append_nil] at hin ⊢
    exact replaced_of_uri hin (by omega) (by omega)
  · -- the URI starts inside of one that was found
    obtain ⟨v, w, hlength, rfl, hrest⟩ := uri_inside h' heq hne hlt
    by_cases hsign : '@' ∈ user
    · refine .inl ⟨?_, hsign⟩
      rw [List.length_append, Nat.add_assoc]
      refine replaced_of_uri hin (by omega) ?_
      simp only [List.length_append, List.length_cons]
      omega
    · -- then the password of that one reaches up to the end of this one
      have hparts : user ++ ':' :: password = w := by
        have hnot : '@' ∉ user ++ ':' :: password := by
          simp [hsign, h.sign]
        have hnot' : '@' ∉ w := fun hmem => h'.sign (by simp [hmem])
        have hrest : (user ++ ':' :: password) ++ '@' :: B = w ++ '@' :: y.rest := by
          simpa using hrest
        exact (append_cons_inj hnot hnot' hrest).1
      refine .inr fun i hi => ?_
      rw [List.length_append, Nat.add_assoc]
      refine replaced_of_uri hin (by omega) ?_
      simp only [List.length_append, List.length_cons, ← hparts]
      omega

/-- **What the first pass takes** reaches up to an at sign. -/
theorem sign_of_replaced {text : List Char} {i : ℕ}
    (h : (Edit.kept (redactUris text))[i]? = some false) :
    ∃ e > i, text[e]? = some '@' ∧
      ∀ k, i ≤ k → k < e → (Edit.kept (redactUris text))[k]? = some false := by
  obtain ⟨before, z, ⟨user', password'⟩, y, after, hin, hle, hreplaced⟩ :=
    exists_match_of_replaced rewrites_uri h
  have hsource : text = Edit.source before ++
      (Edit.source (uriEdits (user', password')) ++ y.rest) := hin.source rewrites_uri
  rw [source_uriEdits, uriText] at hsource
  rw [kept_uriEdits] at hreplaced
  -- the place of the password
  have hlow : user'.length + 4 ≤ i - (Edit.source before).length := by
    by_contra hlt
    rw [List.getElem?_append_left (by rw [List.length_replicate]; omega),
      List.getElem?_replicate] at hreplaced
    simp at hreplaced
  have hhigh : i - (Edit.source before).length < user'.length + 4 + password'.length := by
    by_contra hge
    rw [List.getElem?_append_right (by rw [List.length_replicate]; omega),
      List.getElem?_append_right (by simp only [List.length_replicate]; omega),
      List.getElem?_singleton] at hreplaced
    split at hreplaced <;> cases hreplaced
  refine ⟨(Edit.source before).length + (user'.length + 4 + password'.length), by omega, ?_, ?_⟩
  · have htext : text = (Edit.source before ++ ("://".toList ++ user' ++ ':' :: password')) ++
        '@' :: y.rest := by
      rw [List.append_assoc]
      simpa using hsource
    have hlength : (Edit.source before).length + (user'.length + 4 + password'.length) =
        (Edit.source before ++ ("://".toList ++ user' ++ ':' :: password')).length := by
      simp only [List.length_append, List.length_cons]
      change _ = _ + (3 + _ + _)
      omega
    rw [htext, hlength, List.getElem?_append_right (Nat.le_refl _), Nat.sub_self]
    rfl
  · intro k hk hke
    have := replaced_of_uri hin (i := k - (Edit.source before).length) (by omega) (by omega)
    rwa [Nat.add_sub_cancel' (by omega)] at this

/-- What stands in front of something that is left is left with it, if no at sign lies between. -/
theorem carries_front {pre w A₁ B₁ text : List Char} (hw : w ≠ []) (hsign : '@' ∉ pre)
    (hhead : w.head? ≠ some '@') (h : Edit.Carries (redactUris text) (A ++ pre) w B A₁ B₁) :
    ∃ A₂, A₁ = A₂ ++ pre ∧ Edit.Carries (redactUris text) A (pre ++ w) B A₂ B₁ := by
  have hsource : text = A ++ pre ++ w ++ B := (source_rewrite rewrites_uri text).symm.trans h.source
  have hlength : (Edit.kept (redactUris text)).length = text.length := by
    rw [Edit.length_kept]
    exact congrArg _ (source_rewrite rewrites_uri text)
  have hkept := (Edit.carries_iff hw h.source).mp ⟨_, _, h⟩
  have hpos := List.length_pos_iff.mpr hw
  have hall : ∀ i < (pre ++ w).length,
      (Edit.kept (redactUris text))[A.length + i]? = some true := by
    intro i hi
    rw [List.length_append] at hi
    rcases Nat.lt_or_ge i pre.length with hlt | hge
    · -- what is taken here would reach up to an at sign
      have hbound : A.length + i < (Edit.kept (redactUris text)).length := by
        rw [hlength, hsource]
        simp only [List.length_append]
        omega
      rw [List.getElem?_eq_getElem hbound, Option.some_inj]
      by_contra hfalse
      have hreplaced : (Edit.kept (redactUris text))[A.length + i]? = some false := by
        rw [List.getElem?_eq_getElem hbound, Bool.eq_false_iff.mpr hfalse]
      obtain ⟨e, he, hat, hrange⟩ := sign_of_replaced hreplaced
      have hstart := hkept 0 hpos
      rcases Nat.lt_trichotomy e (A.length + pre.length) with hin | hin | hin
      · rw [hsource, List.append_assoc, List.append_assoc,
          List.getElem?_append_right (by omega), List.getElem?_append_left (by omega)] at hat
        exact hsign (List.mem_of_getElem? hat)
      · rw [hsource, hin, List.append_assoc, ← List.length_append,
          List.getElem?_append_right (Nat.le_refl _), Nat.sub_self,
          List.getElem?_append_left hpos, ← List.head?_eq_getElem?] at hat
        exact hhead hat
      · rw [Nat.add_zero, List.length_append, hrange _ (by omega) hin] at hstart
        cases hstart
    · have := hkept (i - pre.length) (by omega)
      rwa [List.length_append, Nat.add_assoc, Nat.add_sub_cancel' hge] at this
  have hsource' : Edit.source (redactUris text) = A ++ (pre ++ w) ++ B := by
    rw [h.source]
    simp only [List.append_assoc]
  obtain ⟨A₂, B₂, hboth⟩ :=
    (Edit.carries_iff (List.append_ne_nil_of_right_ne_nil _ hw) hsource').mpr hall
  have hpart : Edit.Carries (redactUris text) (A ++ pre) w B (A₂ ++ pre) B₂ := by
    have hboth : Edit.Carries (redactUris text) A (pre ++ w ++ []) B A₂ B₂ := by
      rwa [List.append_nil]
    simpa using hboth.part
  obtain ⟨rfl, rfl⟩ := h.unique hpart
  exact ⟨A₂, rfl, hboth⟩

end Uris

/-! ## The second pass -/

section Entries

variable {e e' : Entry} {A B R R' name v : List Char} {sep : Char}

/-- What follows the name of an entry is no letter. -/
theorem IsEntry.head_blanks (h : IsEntry e) :
    ∀ c ∈ (e.blanks ++ e.separator :: (e.blanks' ++ e.value) ++ R).head?, isLetter c = false := by
  cases hblanks : e.blanks with
  | nil => exact forall_head_cons (isLetter_of_isSeparator h.separator)
  | cons b blanks =>
    exact forall_head_cons (isLetter_of_isSpace (h.blanks _ (hblanks ▸ List.mem_cons_self)))

theorem IsEntry.head_value (h : IsEntry e) :
    ∀ c ∈ (e.value ++ R).head?, isSpace c = false := by
  obtain ⟨d, value, hvalue⟩ := List.exists_cons_of_ne_nil h.value_ne
  rw [hvalue]
  exact forall_head_cons (h.value _ (hvalue ▸ List.mem_cons_self))

/-- A place is the beginning of one entry only, up to the next blank. -/
theorem entryText_append_inj (h : IsEntry e) (h' : IsEntry e')
    (hR : ∀ c ∈ R.head?, isSpace c = true) (hR' : ∀ c ∈ R'.head?, isSpace c = true)
    (heq : e.text ++ R = e'.text ++ R') : e = e' ∧ R = R' := by
  have heq : e.name ++ (e.blanks ++ e.separator :: (e.blanks' ++ e.value) ++ R) =
      e'.name ++ (e'.blanks ++ e'.separator :: (e'.blanks' ++ e'.value) ++ R') := by
    simpa [Entry.text] using heq
  obtain ⟨hname, heq⟩ := run_inj h.name.letters h'.name.letters h.head_blanks h'.head_blanks heq
  have hsep : ∀ {e : Entry} {l : List Char}, IsEntry e →
      ∀ c ∈ (e.separator :: l).head?, isSpace c = false :=
    fun h => forall_head_cons (isSpace_of_isSeparator h.separator)
  rw [List.append_assoc, List.append_assoc, List.cons_append, List.cons_append] at heq
  obtain ⟨hblanks, heq⟩ := run_inj h.blanks h'.blanks (hsep h) (hsep h') heq
  obtain ⟨hseparator, heq⟩ := List.cons.inj heq
  rw [List.append_assoc, List.append_assoc] at heq
  obtain ⟨hblanks', heq⟩ := run_inj h.blanks' h'.blanks' h.head_value h'.head_value heq
  have hfull : ∀ {l : List Char}, (∀ c ∈ l, isSpace c = false) → ∀ c ∈ l, (!isSpace c) = true :=
    fun hl c hc => by rw [hl c hc]; rfl
  have hend : ∀ {l : List Char}, (∀ c ∈ l.head?, isSpace c = true) →
      ∀ c ∈ l.head?, (!isSpace c) = false := fun hl c hc => by rw [hl c hc]; rfl
  obtain ⟨hvalue, hrest⟩ := run_inj (hfull h.value) (hfull h'.value) (hend hR) (hend hR') heq
  cases e
  cases e'
  simp only at hname hblanks hseparator hblanks' hvalue
  subst hname hblanks hseparator hblanks' hvalue
  exact ⟨rfl, hrest⟩

/-- A text without blanks in front of a blank reaches as far as any other. -/
theorem length_le_of_append_eq {t : List Char} (hv : ∀ c ∈ v, isSpace c = false)
    (hR : ∀ c ∈ R.head?, isSpace c = true) (heq : v ++ B = t ++ R) : v.length ≤ t.length := by
  by_contra hlt
  obtain ⟨v', rfl⟩ : t <+: v := List.prefix_of_prefix_length_le ⟨R, heq.symm⟩
    (List.prefix_append v B) (by omega)
  rw [List.append_assoc] at heq
  have hrest := List.append_cancel_left heq
  cases v' with
  | nil => simp at hlt
  | cons c v' =>
    have hspace := hR c (by rw [← hrest]; rfl)
    rw [hv c (by simp)] at hspace
    cases hspace

theorem kept_entryEdits (e : Entry) : Edit.kept (entryEdits e) =
    List.replicate e.name.length true ++ (List.replicate e.blanks.length false ++
      (decide (e.separator = '=') ::
        List.replicate (e.blanks'.length + e.value.length) false)) := by
  rw [entryEdits]
  split
  case isTrue heq => simp [heq]
  case isFalse hne =>
    simp [hne, ← List.replicate_succ]

theorem length_text (e : Entry) : e.text.length =
    e.name.length + (e.blanks.length + (1 + (e.blanks'.length + e.value.length))) := by
  simp only [Entry.text, List.length_append, List.length_cons]
  omega

/-- What is taken of a match: everything behind the separator, and the separator, unless it is
written again. -/
theorem replaced_of_entry {before after : List (Edit Char)} {x z y : Spot} {i : ℕ}
    (h : MatchIn entryPattern.matchAt entryEdits x before z e y after)
    (hlow : e.name.length + e.blanks.length ≤ i)
    (hsep : i = e.name.length + e.blanks.length → e.separator ≠ '=') (hhigh : i < e.text.length) :
    (Edit.kept (rewriteAt entryPattern.matchAt entryEdits x))[(Edit.source before).length + i]? =
      some false := by
  rw [length_text] at hhigh
  rw [h.rewriting, Edit.kept_append, Edit.kept_append, kept_entryEdits, List.append_assoc,
    List.getElem?_append_right (by simp), Edit.length_kept, Nat.add_sub_cancel_left,
    List.getElem?_append_left (by simp; omega),
    List.getElem?_append_right (by rw [List.length_replicate]; omega),
    List.getElem?_append_right (by simp only [List.length_replicate]; omega)]
  simp only [List.length_replicate]
  obtain ⟨k, rfl⟩ := Nat.exists_eq_add_of_le hlow
  have hindex : e.name.length + e.blanks.length + k - e.name.length - e.blanks.length = k := by
    omega
  rw [hindex]
  cases k with
  | zero => simp [hsep rfl]
  | succ k =>
    rw [List.getElem?_cons_succ, List.getElem?_replicate, if_pos (by omega)]

/-- The place where an entry that starts inside of another one starts. -/
theorem entry_inside {u : List Char} (h : IsEntry e) (hname : IsWord name)
    (hsep : isSeparator sep = true) (hR : ∀ c ∈ R.head?, isSpace c = true)
    (hv : ∀ c ∈ v, isSpace c = false)
    (heq : u ++ (name ++ sep :: (v ++ B)) = e.text ++ R) (hne : u ≠ [])
    (hlt : u.length < e.text.length) :
    e.name.length + e.blanks.length < u.length ∧
      u.length + (name.length + 1 + v.length) ≤ e.text.length := by
  have hnameLetter : ∀ c ∈ (sep :: (v ++ B)).head?, isLetter c = false :=
    forall_head_cons (isLetter_of_isSeparator hsep)
  have hwhole : ∀ c ∈ name ++ sep :: v, isSpace c = false := by
    intro c hc
    rcases List.mem_append.mp hc with hc | hc
    · exact isSpace_of_isLetter (hname.letters c hc)
    · rcases List.mem_cons.mp hc with rfl | hc
      · exact isSpace_of_isSeparator hsep
      · exact hv c hc
  have hmiddle : ∀ c ∈ e.blanks ++ e.separator :: e.blanks', isLetter c = false := by
    intro c hc
    rcases List.mem_append.mp hc with hc | hc
    · exact isLetter_of_isSpace (h.blanks c hc)
    · rcases List.mem_cons.mp hc with rfl | hc
      · exact isLetter_of_isSeparator h.separator
      · exact isLetter_of_isSpace (h.blanks' c hc)
  have heq : u ++ (name ++ sep :: (v ++ B)) =
      e.name ++ (e.blanks ++ e.separator :: (e.blanks' ++ e.value) ++ R) := by
    simpa [Entry.text] using heq
  rcases List.append_eq_append_iff.mp heq with ⟨a, hword, hrest⟩ | ⟨c, rfl, hrest⟩
  · -- it would start in the name, which does not end with a word
    have ha : ∀ x ∈ a, isLetter x = true := fun x hx =>
      h.name.letters x (hword ▸ List.mem_append_right u hx)
    obtain ⟨rfl, -⟩ := run_inj hname.letters ha hnameLetter h.head_blanks hrest
    have hboth : IsWord (u ++ name) := hword ▸ h.name
    exact absurd (hboth.eq_of_append hname) hne
  · have hrest : (e.blanks ++ e.separator :: e.blanks') ++ (e.value ++ R) =
        c ++ (name ++ sep :: (v ++ B)) := by
      simpa using hrest
    obtain ⟨d, rfl, hvalues⟩ : ∃ d, c = (e.blanks ++ e.separator :: e.blanks') ++ d ∧
        e.value ++ R = d ++ (name ++ sep :: (v ++ B)) := by
      rcases List.append_eq_append_iff.mp hrest with ⟨d, hc, hrest⟩ | ⟨a, hmid, hrest⟩
      · exact ⟨d, hc, hrest⟩
      · cases a with
        | nil => exact ⟨[], by rw [hmid, List.append_nil, List.append_nil], hrest.symm⟩
        | cons q a =>
          -- it would start between the name and the value, where no letters are
          obtain ⟨x, name', hx⟩ := List.exists_cons_of_ne_nil hname.ne_nil
          rw [hx] at hrest
          obtain ⟨rfl, -⟩ := List.cons.inj hrest
          have hletter := hname.letters x (hx ▸ List.mem_cons_self)
          rw [hmiddle x (hmid ▸ by simp)] at hletter
          cases hletter
    rw [length_text] at hlt ⊢
    simp only [List.length_append, List.length_cons] at hlt ⊢
    rcases List.append_eq_append_iff.mp hvalues with ⟨d', rfl, -⟩ | ⟨t, hvalue, hbehind⟩
    · simp only [List.length_append] at hlt
      omega
    · have hrest : (name ++ sep :: v) ++ B = t ++ R := by
        simpa using hbehind
      have hle := length_le_of_append_eq hwhole hR hrest
      have hlength := congrArg List.length hvalue
      simp only [List.length_append, List.length_cons] at hle hlength
      omega

/-- **What the second pass takes** of a text that has a name, a separator and a value directly
behind each other: the value, and the separator, if it is a colon. -/
theorem entry_replaced (hname : IsWord name) (hsep : isSeparator sep = true) (hne : v ≠ [])
    (hv : ∀ c ∈ v, isSpace c = false) {text : List Char}
    (htext : text = A ++ (name ++ sep :: (v ++ B))) :
    (∀ i < v.length,
        (Edit.kept (redactEntries text))[A.length + (name.length + 1 + i)]? = some false) ∧
      (sep ≠ '=' → (Edit.kept (redactEntries text))[A.length + name.length]? = some false) := by
  subst htext
  -- the entry up to the next blank
  let whole : Entry := ⟨name, [], sep, [], v ++ B.takeWhile fun c => !isSpace c⟩
  have hwhole : IsEntry whole := by
    refine ⟨hname, fun _ h => absurd h List.not_mem_nil, hsep,
      fun _ h => absurd h List.not_mem_nil, List.append_ne_nil_of_left_ne_nil hne _, ?_⟩
    intro c hc
    rcases List.mem_append.mp hc with hc | hc
    · exact hv c hc
    · simpa using List.all_eq_true.mp List.all_takeWhile c hc
  have htext : name ++ sep :: (v ++ B) = whole.text ++ B.dropWhile fun c => !isSpace c := by
    simp [whole, Entry.text, List.takeWhile_append_dropWhile]
  have hend : ∀ c ∈ (B.dropWhile fun c => !isSpace c).head?, isSpace c = true := by
    intro c hc
    have := List.head?_dropWhile_not (fun c => !isSpace c) B
    rw [Option.mem_def.mp hc] at this
    simpa using this
  have hz := Spot.leads_start A (name ++ sep :: (v ++ B))
  have hmatch : (entryPattern.matchAt ⟨A.getLast?, name ++ sep :: (v ++ B)⟩).isSome = true := by
    rw [matchAt, List.isSome_head?]
    have hmem : (whole, (⟨whole.text.getLast?.or A.getLast?,
        B.dropWhile fun c => !isSpace c⟩ : Spot)) ∈
          entryPattern ⟨A.getLast?, name ++ sep :: (v ++ B)⟩ :=
      mem_entryPattern.mpr ⟨⟨htext, rfl⟩, hwhole⟩
    exact List.ne_nil_of_mem hmem
  obtain ⟨before, z', e, y, after, hin, ⟨u, hu⟩, hbehind⟩ :=
    exists_rewrite_of_match rewrites_entry hz hmatch
  obtain rfl : A = Edit.source before ++ u := eq_of_leads hz (hin.leads.trans hu)
  obtain ⟨hleads, he⟩ := mem_entryPattern.mp (mem_of_matchAt hin.found)
  have hrest := entry_maximal hin.found
  have heq : u ++ (name ++ sep :: (v ++ B)) = e.text ++ y.rest := hu.rest.symm.trans hleads.rest
  have hlt : u.length < e.text.length := by
    have hlength := congrArg List.length heq
    simp only [List.length_append] at hlength hbehind
    omega
  by_cases hnil : u = []
  · subst hnil
    rw [List.append_nil] at hin ⊢
    obtain ⟨rfl, -⟩ := entryText_append_inj hwhole he hend hrest (htext.symm.trans heq)
    have hlength : whole.text.length =
        name.length + (1 + (v.length + (B.takeWhile fun c => !isSpace c).length)) := by
      rw [length_text]
      simp [whole]
    constructor
    · intro i hi
      exact replaced_of_entry hin (by simp only [whole, List.length_nil]; omega)
        (fun h => by simp only [whole, List.length_nil] at h; omega) (by omega)
    · intro hcolon
      exact replaced_of_entry hin (by simp [whole]) (fun _ => hcolon) (by omega)
  · obtain ⟨hlow, hhigh⟩ := entry_inside he hname hsep hrest hv heq hnil hlt
    constructor
    · intro i hi
      rw [List.length_append, Nat.add_assoc]
      exact replaced_of_entry hin (by omega) (fun h => by omega) (by omega)
    · intro _
      rw [List.length_append, Nat.add_assoc]
      exact replaced_of_entry hin (by omega) (fun h => by omega) (by omega)

end Entries

/-! ## Where something is taken -/

/-- A connection URI starts here. -/
def UriAt (l : List Char) : Prop :=
  ∃ user password rest, IsUri user password ∧ l = uriText user password ++ rest

/-- An entry starts here. -/
def EntryAt (l : List Char) : Prop :=
  ∃ (e : Entry) (rest : List Char), IsEntry e ∧ l = e.text ++ rest

/-- `Bearer` starts here, and a blank follows. -/
def BearerAt (l : List Char) : Prop :=
  ∃ (scheme : List Char) (b : Char) (rest : List Char),
    scheme.map foldCase = "bearer".toList ∧ isSpace b = true ∧ l = scheme ++ b :: rest

theorem uriAt_of_match {y : Spot} {r} (h : uriPattern.matchAt y = some r) : UriAt y.rest := by
  obtain ⟨⟨user, password⟩, z⟩ := r
  obtain ⟨hleads, huri⟩ := matchAt_uriPattern_iff.mp h
  exact ⟨user, password, z.rest, huri, hleads.rest⟩

theorem entryAt_of_match {y : Spot} {r} (h : entryPattern.matchAt y = some r) : EntryAt y.rest := by
  obtain ⟨e, z⟩ := r
  obtain ⟨hleads, he⟩ := mem_entryPattern.mp (mem_of_matchAt h)
  exact ⟨e, z.rest, he, hleads.rest⟩

theorem bearerAt_of_match {y : Spot} {r} (h : bearerPattern.matchAt y = some r) :
    BearerAt y.rest := by
  obtain ⟨t, z⟩ := r
  obtain ⟨hleads, hscheme, hne, hblanks, -⟩ := mem_bearerPattern (mem_of_matchAt h)
  obtain ⟨b, blanks, hb⟩ := List.exists_cons_of_ne_nil hne
  refine ⟨t.scheme, b, blanks ++ t.token ++ z.rest, hscheme,
    hblanks b (hb ▸ List.mem_cons_self), ?_⟩
  rw [hleads.rest, hb]
  simp

section Places

variable {l k m : List Char} {c : Char}

theorem not_uriAt_cons (h : c ≠ ':') : ¬ UriAt (c :: l) := by
  rintro ⟨user, password, rest, -, hl⟩
  exact h (List.cons.inj hl).1

theorem not_uriAt_colon (h : l.head? ≠ some '/') : ¬ UriAt (c :: l) := by
  rintro ⟨user, password, rest, -, hl⟩
  exact h (by rw [(List.cons.inj hl).2]; rfl)

theorem skips_uriAt (h : ':' ∉ m) : Skips UriAt m l := by
  induction m with
  | nil => exact skips_nil
  | cons c m ih =>
    obtain ⟨hc, hm⟩ := not_or.mp (List.mem_cons.not.mp h)
    exact skips_cons_iff.mpr ⟨not_uriAt_cons fun heq => hc heq.symm, ih hm⟩

theorem not_entryAt_cons (h : isLetter c = false) : ¬ EntryAt (c :: l) := by
  rintro ⟨e, rest, he, hl⟩
  obtain ⟨d, name, hname⟩ := List.exists_cons_of_ne_nil he.name.ne_nil
  rw [Entry.text, hname] at hl
  obtain ⟨rfl, -⟩ := List.cons.inj hl
  rw [he.name.letters c (hname ▸ List.mem_cons_self)] at h
  cases h

theorem skips_entryAt (h : ∀ c ∈ m, isLetter c = false) : Skips EntryAt m l := by
  induction m with
  | nil => exact skips_nil
  | cons c m ih =>
    obtain ⟨hc, hm⟩ := List.forall_mem_cons.mp h
    exact skips_cons_iff.mpr ⟨not_entryAt_cons hc, ih hm⟩

/-- An entry that starts with a run of letters has them as its name. -/
theorem entryAt_run (hk : ∀ c ∈ k, isLetter c = true) (hl : ∀ c ∈ l.head?, isLetter c = false)
    (h : EntryAt (k ++ l)) :
    IsWord k ∧ ∃ c ∈ l.head?, isSpace c = true ∨ isSeparator c = true := by
  obtain ⟨e, rest, he, heq⟩ := h
  have heq : k ++ l = e.name ++ (e.blanks ++ e.separator :: (e.blanks' ++ e.value) ++ rest) := by
    simpa [Entry.text] using heq
  obtain ⟨rfl, rfl⟩ := run_inj hk he.name.letters hl he.head_blanks heq
  refine ⟨he.name, ?_⟩
  cases hblanks : e.blanks with
  | nil => exact ⟨e.separator, rfl, .inr he.separator⟩
  | cons b blanks => exact ⟨b, rfl, .inl (he.blanks b (hblanks ▸ List.mem_cons_self))⟩

/-- An entry that starts in front of the first blank or separator has all up to it as its name. -/
theorem entryAt_word (hk : ∀ c ∈ k, isSpace c = false ∧ isSeparator c = false)
    (hl : ∀ c ∈ l.head?, isSpace c = true ∨ isSeparator c = true) (h : EntryAt (k ++ l)) :
    IsWord k := by
  obtain ⟨e, rest, he, heq⟩ := h
  have heq : k ++ l = e.name ++ (e.blanks ++ e.separator :: (e.blanks' ++ e.value) ++ rest) := by
    simpa [Entry.text] using heq
  have hk' : ∀ c ∈ k, (!(isSpace c || isSeparator c)) = true := by
    intro c hc
    rw [(hk c hc).1, (hk c hc).2]
    rfl
  have hname : ∀ c ∈ e.name, (!(isSpace c || isSeparator c)) = true := by
    intro c hc
    have hletter := he.name.letters c hc
    rw [isSpace_of_isLetter hletter, Bool.false_or, Bool.not_eq_true', Bool.eq_false_iff]
    intro hsep
    rw [isLetter_of_isSeparator hsep] at hletter
    cases hletter
  have hend : ∀ {l : List Char}, (∀ c ∈ l.head?, isSpace c = true ∨ isSeparator c = true) →
      ∀ c ∈ l.head?, (!(isSpace c || isSeparator c)) = false := by
    intro l hl c hc
    rw [Bool.not_eq_false', Bool.or_eq_true]
    exact hl c hc
  have hblanks : ∀ c ∈ (e.blanks ++ e.separator :: (e.blanks' ++ e.value) ++ rest).head?,
      isSpace c = true ∨ isSeparator c = true := by
    cases hblanks : e.blanks with
    | nil => exact forall_head_cons (.inr he.separator)
    | cons b blanks =>
      exact forall_head_cons (.inl (he.blanks b (hblanks ▸ List.mem_cons_self)))
  obtain ⟨rfl, -⟩ := run_inj hk' hname (hend hl) (hend hblanks) heq
  exact he.name

/-- No entry starts in a run of letters that something else follows. -/
theorem skips_entryAt_run (hk : ∀ c ∈ k, isLetter c = true)
    (hl : ∀ c ∈ l.head?, isLetter c = false ∧ isSpace c = false ∧ isSeparator c = false) :
    Skips EntryAt k l := by
  rintro m₁ m₂ rfl - h
  obtain ⟨-, c, hc, hcase⟩ := entryAt_run (fun c hc => hk c (List.mem_append_right m₁ hc))
    (fun c hc => (hl c hc).1) h
  obtain ⟨-, hspace, hsep⟩ := hl c hc
  rcases hcase with hcase | hcase
  · rw [hspace] at hcase
    cases hcase
  · rw [hsep] at hcase
    cases hcase

theorem not_bearerAt_cons (h : foldCase c ≠ 'b') : ¬ BearerAt (c :: l) := by
  rintro ⟨scheme, b, rest, hscheme, -, hl⟩
  cases scheme with
  | nil => cases hscheme
  | cons d scheme =>
    obtain ⟨rfl, -⟩ := List.cons.inj hl
    exact h (List.cons.inj hscheme).1

theorem skips_bearerAt (h : ∀ c ∈ m, foldCase c ≠ 'b') : Skips BearerAt m l := by
  induction m with
  | nil => exact skips_nil
  | cons c m ih =>
    obtain ⟨hc, hm⟩ := List.forall_mem_cons.mp h
    exact skips_cons_iff.mpr ⟨not_bearerAt_cons hc, ih hm⟩

/-- A letter is not followed by a blank. -/
def Apart (c b : Char) : Prop := isLetter c = false ∨ isSpace b = false

/-- Where no letter is followed by a blank, there is no `Bearer` with something behind it. -/
theorem skips_bearerAt_of_isChain (h : m.IsChain Apart) : Skips BearerAt m [] := by
  rintro m₁ m₂ rfl - ⟨scheme, b, rest, hscheme, hb, heq⟩
  rw [List.append_nil] at heq
  subst heq
  -- the last letter of the scheme and the blank
  obtain ⟨scheme, c, rfl⟩ : ∃ scheme' c, scheme = scheme' ++ [c] := by
    rcases List.eq_nil_or_concat scheme with rfl | ⟨scheme', c, rfl⟩
    · cases hscheme
    · exact ⟨scheme', c, List.concat_eq_append⟩
  have hletter : isLetter c = true := by
    have hlast := congrArg List.getLast? hscheme
    rw [List.map_append, List.map_singleton, List.getLast?_concat] at hlast
    rw [isLetter, Option.some.inj (hlast.trans (by rfl : "bearer".toList.getLast? = some 'r'))]
    rfl
  have hpair : ([c, b] : List Char).IsChain Apart := by
    refine h.infix ⟨m₁ ++ scheme, rest, ?_⟩
    simp
  rcases List.isChain_cons_cons.mp hpair with ⟨hc | hb', -⟩
  · rw [hletter] at hc
    cases hc
  · rw [hb] at hb'
    cases hb'

end Places

end Redaction

end FinanceIntelligence
