import FinanceIntelligence.RedactionPasses

/-!
# Where secrets stand in log lines

A secret stands in a line as the credential of an `Authorization` header, as the password of a
connection URI, or as the value of an entry (`Carrier`). It **stays** if every pass of
`redact_text` carries it over as a whole.

* `Carrier.hidden_of_safe` — from a place that is **safe** it is taken, whatever stands around;
* `Carrier.stays_of_not_safe` — in one that is not, it stays in **some** line;
* `redactText_unsettled` — every text can stand in a line that is redacted **further** when it is
  redacted again;
* `redactText_iff` — all of this together.
-/

namespace FinanceIntelligence

namespace Redaction

open Pattern

/-! ## Staying in a line -/

/-- **The secret stays**: each of the passes carries it over, from its place in the line to the
place where the next one finds it. -/
def Stays (A secret B : List Char) : Prop :=
  ∃ A₁ B₁ A₂ B₂ A₃ B₃,
    Edit.Carries (redactUris (A ++ secret ++ B)) A secret B A₁ B₁ ∧
      Edit.Carries (redactEntries (A₁ ++ secret ++ B₁)) A₁ secret B₁ A₂ B₂ ∧
        Edit.Carries (redactCredentials (A₂ ++ secret ++ B₂)) A₂ secret B₂ A₃ B₃

/-! ## Secrets that betray themselves -/

/-- The secret has a connection URI in it. -/
def HoldsUri (secret : List Char) : Prop :=
  ∃ x user password y, IsUri user password ∧ secret = x ++ (uriText user password ++ y)

/-- The secret has an entry in it. If something follows for sure, a name and a colon at the end
are enough. -/
def HoldsEntry (closed : Prop) (secret : List Char) : Prop :=
  ∃ x name sep y, IsWord name ∧ isSeparator sep = true ∧ secret = x ++ (name ++ sep :: y) ∧
    (y ≠ [] ∨ closed ∧ sep = ':')

/-! ## Carriers -/

/-- `Authorization: Bearer …`. -/
structure BearerHeader where
  /-- the name of the header -/
  name : List Char
  /-- blanks -/
  gap : List Char
  scheme : List Char
  blanks : List Char
  /-- in any case -/
  name_eq : name.map foldCase = "authorization".toList
  /-- blanks -/
  gap_space : ∀ c ∈ gap, isSpace c = true
  /-- in any case -/
  scheme_eq : scheme.map foldCase = "bearer".toList
  /-- there are some -/
  blanks_ne : blanks ≠ []
  /-- blanks -/
  blanks_space : ∀ c ∈ blanks, isSpace c = true

/-- A character of the scheme of a URI. -/
def isSchemeChar (c : Char) : Bool := c.isAlphanum || c == '+' || c == '-' || c == '.'

/-- A character of the user and the password of a URI: no blank, and none of the delimiters other
than the colon. -/
def isUserinfoChar (c : Char) : Bool :=
  !isSpace c && c != '/' && c != '?' && c != '#' && c != '[' && c != ']' && c != '@'

/-- `scheme://user:…@`. -/
structure ConnectionUri where
  scheme : List Char
  /-- the user, if there is one -/
  user : List Char
  /-- its characters -/
  scheme_char : ∀ c ∈ scheme, isSchemeChar c = true
  /-- its characters -/
  user_char : ∀ c ∈ user, isUserinfoChar c = true ∧ c ≠ ':'

/-- The names of entries with secrets. -/
def IsKey (key : List Char) : Prop :=
  key.map foldCase ∈ ["password".toList, "secret".toList, "token".toList, "key".toList]

/-- `key=…` or `key: …`. -/
structure KeyEntry where
  /-- the name -/
  key : List Char
  blanks : List Char
  /-- the separator -/
  sep : Char
  blanks' : List Char
  /-- in any case -/
  key_eq : IsKey key
  /-- blanks -/
  blanks_space : ∀ c ∈ blanks, isSpace c = true
  /-- a colon or an equals sign -/
  sep_eq : isSeparator sep = true
  blanks'_space : ∀ c ∈ blanks', isSpace c = true

/-- `"key": "…"`. -/
structure JsonMember where
  /-- the name -/
  key : List Char
  blanks : List Char
  blanks' : List Char
  /-- in any case -/
  key_eq : IsKey key
  /-- blanks -/
  blanks_space : ∀ c ∈ blanks, isSpace c = true
  blanks'_space : ∀ c ∈ blanks', isSpace c = true

/-- What a secret stands in. -/
inductive Carrier where
  | header (h : BearerHeader)
  /-- a connection URI -/
  | uri (u : ConnectionUri)
  | entry (e : KeyEntry)
  /-- an entry of a JSON object -/
  | member (m : JsonMember)

namespace Carrier

/-- What stands in front of the secret. -/
def lead : Carrier → List Char
  | header h => h.name ++ ':' :: (h.gap ++ h.scheme ++ h.blanks)
  | uri u => u.scheme ++ ("://".toList ++ u.user ++ [':'])
  | entry e => e.key ++ e.blanks ++ e.sep :: e.blanks'
  | member m => '"' :: (m.key ++ '"' :: (m.blanks ++ ':' :: (m.blanks' ++ ['"'])))

/-- What stands behind it. -/
def tail : Carrier → List Char
  | header _ => []
  | uri _ => ['@']
  | entry _ => []
  | member _ => ['"']

/-- A secret for the carrier: there is something, without blanks, and the password of a URI has
only characters that one can have. (A value of a JSON object is the text that stands there.) -/
structure IsSecret (c : Carrier) (secret : List Char) : Prop where
  /-- there is something -/
  ne_nil : secret ≠ []
  /-- it has no blanks -/
  space : ∀ x ∈ secret, isSpace x = false
  /-- what a password can have -/
  userinfo : ∀ u, c = uri u → ∀ x ∈ secret, isUserinfoChar x = true

/-- The line with the secret. -/
def line (c : Carrier) (before secret after : List Char) : List Char :=
  (before ++ c.lead) ++ secret ++ (c.tail ++ after)

/-- The secret stays in the line. -/
def Leaks (c : Carrier) (before secret after : List Char) : Prop :=
  Stays (before ++ c.lead) secret (c.tail ++ after)

/-- **Where a secret is safe**: as the password of a URI with a user, as the value of an entry
without blanks around the separator, unless it starts with an at sign, and wherever it, or the
scheme of the URI, betrays itself. -/
def Safe : Carrier → List Char → Prop
  | header _, secret => HoldsUri secret ∨ HoldsEntry False secret
  | uri u, secret =>
    u.user ≠ [] ∨ (∃ x name, IsWord name ∧ u.scheme = x ++ name) ∨ HoldsEntry True secret
  | entry e, secret =>
    HoldsUri (if e.blanks' = [] then e.sep :: secret else secret) ∨ HoldsEntry False secret ∨
      e.blanks = [] ∧ e.blanks' = [] ∧ secret.head? ≠ some '@'
  | member _, secret => HoldsUri secret ∨ HoldsEntry True secret

end Carrier

/-! ## What is taken -/

section Taken

variable {A B secret name v₀ : List Char} {sep : Char} {closed : Prop}

/-- A class of characters is checked on a given text. -/
theorem forall_of_all {p : Char → Bool} {b : Bool} {l : List Char}
    (h : (l.all fun c => p c == b) = true) : ∀ c ∈ l, p c = b :=
  fun c hc => beq_iff_eq.mp (List.all_eq_true.mp h c hc)

/-- A secret with a connection URI in it does not stay, nor one that is part of the URI together
with the character in front of it. -/
theorem not_stays_of_holdsUri {pre : List Char} (hpre : pre.length ≤ 1)
    (h : HoldsUri (pre ++ secret)) : ¬ Stays (A ++ pre) secret B := by
  rintro ⟨A₁, B₁, -, -, -, -, huris, -⟩
  obtain ⟨x, user, password, y, huri, hsecret⟩ := h
  have htext : A ++ pre ++ secret ++ B = (A ++ x) ++ (uriText user password ++ (y ++ B)) := by
    rw [List.append_assoc A, hsecret]
    simp only [List.append_assoc]
  have hlength := congrArg List.length hsecret
  have huriText : (uriText user password).length = user.length + password.length + 5 := by
    simp [uriText]
    omega
  simp only [List.length_append, huriText] at hlength
  have hpos := List.length_pos_iff.mpr huri.password_ne
  rcases uri_replaced huri htext with ⟨hslash, -⟩ | hpassword
  · refine Edit.not_carries_of_replaced (i := x.length + 1 - pre.length) (by omega) ?_ huris
    rwa [List.length_append, Nat.add_assoc, Nat.add_sub_cancel' (by omega), ← Nat.add_assoc,
      ← List.length_append]
  · refine Edit.not_carries_of_replaced (i := x.length + (user.length + 4 + 0) - pre.length)
      (by omega) ?_ huris
    rw [List.length_append, Nat.add_assoc, Nat.add_sub_cancel' (by omega), ← Nat.add_assoc,
      ← List.length_append]
    exact hpassword 0 hpos

/-- What replaces a password. -/
theorem eq_redacted_of_mem {a : Char} {old new : List Char} {groups : List Char × List Char}
    (h : .replace a old new ∈ uriEdits groups) : new = redacted := by
  obtain ⟨user, password⟩ := groups
  cases password with
  | nil => simp [uriEdits, Edit.keeps, Edit.swap] at h
  | cons b password =>
    simp only [uriEdits, Edit.keeps, Edit.swap, List.mem_append, List.mem_map, List.mem_singleton,
      reduceCtorEq, and_false, exists_false, false_or, or_false, Edit.replace.injEq] at h
    exact h.2.2

/-- After the first pass, what follows starts with no blank, if it did not before. -/
theorem head_of_carries {text w A₁ B₁ : List Char} {c : Char} (hc : isSpace c = false)
    (h : Edit.Carries (redactUris text) A w (c :: B) A₁ B₁) :
    ∃ d B', B₁ = d :: B' ∧ isSpace d = false := by
  obtain ⟨before, after, hl, -, hafter, -, rfl⟩ := h
  cases after with
  | nil => cases hafter
  | cons e after =>
    cases e with
    | keep d =>
      obtain ⟨rfl, -⟩ := List.cons.inj hafter
      exact ⟨d, _, rfl, hc⟩
    | replace d old new =>
      have hmem : .replace d old new ∈ redactUris text := by
        rw [hl]
        simp
      obtain ⟨groups, hgroups⟩ := exists_of_mem_rewriteAt rewrites_uri hmem
      obtain rfl := eq_redacted_of_mem hgroups
      exact ⟨'[', "REDACTED]".toList ++ Edit.result after, rfl, by decide⟩

/-- **A secret with an entry in it** does not stay. -/
theorem not_stays_of_holdsEntry (hsecret : ∀ x ∈ secret, isSpace x = false)
    (hclosed : closed → ∃ c B', B = c :: B' ∧ isSpace c = false) (h : HoldsEntry closed secret) :
    ¬ Stays A secret B := by
  rintro ⟨A₁, B₁, A₂, B₂, -, -, huris, hentries, -⟩
  obtain ⟨x, name, sep, y, hname, hsep, rfl, hcase⟩ := h
  by_cases hne : y = []
  · -- the colon is taken, with what follows it
    subst hne
    obtain ⟨hyes, rfl⟩ := hcase.resolve_left fun hne => hne rfl
    obtain ⟨c, B', rfl, hc⟩ := hclosed hyes
    obtain ⟨d, B₁, rfl, hd⟩ := head_of_carries hc huris
    have htext : A₁ ++ (x ++ (name ++ [':'])) ++ d :: B₁ =
        (A₁ ++ x) ++ (name ++ ':' :: ([d] ++ B₁)) := by
      simp only [List.append_assoc, List.cons_append, List.nil_append]
    obtain ⟨-, hcolon⟩ := entry_replaced hname hsep (List.cons_ne_nil d [])
      (List.forall_mem_singleton.mpr hd) htext
    refine Edit.not_carries_of_replaced (i := x.length + name.length) ?_ ?_ hentries
    · simp only [List.length_append, List.length_cons]
      omega
    · rw [← Nat.add_assoc, ← List.length_append]
      exact hcolon (by decide)
  · have htext : A₁ ++ (x ++ (name ++ sep :: y)) ++ B₁ =
        (A₁ ++ x) ++ (name ++ sep :: (y ++ B₁)) := by
      simp only [List.append_assoc, List.cons_append]
    have hy : ∀ c ∈ y, isSpace c = false := fun c hc => hsecret c (by simp [hc])
    obtain ⟨hvalue, -⟩ := entry_replaced hname hsep hne hy htext
    have hpos := List.length_pos_iff.mpr hne
    refine Edit.not_carries_of_replaced (i := x.length + (name.length + 1 + 0)) ?_ ?_ hentries
    · simp only [List.length_append, List.length_cons]
      omega
    · rw [← Nat.add_assoc, ← List.length_append]
      exact hvalue 0 hpos

/-- **The password of a connection URI with a user** does not stay. -/
theorem not_stays_of_user {user password : List Char} (h : IsUri user password)
    (hsign : '@' ∉ user) :
    ¬ Stays (A ++ ("://".toList ++ user ++ [':'])) password ('@' :: B) := by
  rintro ⟨A₁, B₁, -, -, -, -, huris, -⟩
  have htext : A ++ ("://".toList ++ user ++ [':']) ++ password ++ '@' :: B =
      A ++ (uriText user password ++ B) := by
    simp [uriText]
  have hpassword := (uri_replaced h htext).resolve_left fun hslash => hsign hslash.2
  have hpos := List.length_pos_iff.mpr h.password_ne
  refine Edit.not_carries_of_replaced (i := 0) hpos ?_ huris
  have hlength : (A ++ ("://".toList ++ user ++ [':'])).length + 0 =
      A.length + (user.length + 4 + 0) := by
    simp
  rw [hlength]
  exact hpassword 0 hpos

/-- **What stands behind a word and a separator**, without blanks, does not stay, unless it starts
with an at sign, which the first pass could have reached. -/
theorem not_stays_of_word (hname : IsWord name) (hsep : isSeparator sep = true)
    (hv₀ : ∀ c ∈ v₀, isSpace c = false) (hsign : '@' ∉ v₀) (hne : secret ≠ [])
    (hsecret : ∀ x ∈ secret, isSpace x = false) (hhead : secret.head? ≠ some '@') :
    ¬ Stays (A ++ (name ++ sep :: v₀)) secret B := by
  rintro ⟨A₁, B₁, A₂, B₂, -, -, huris, hentries, -⟩
  have hat : '@' ∉ name ++ sep :: v₀ := by
    intro hmem
    rcases List.mem_append.mp hmem with hmem | hmem
    · exact absurd (hname.letters _ hmem) (by decide)
    · rcases List.mem_cons.mp hmem with rfl | hmem
      · exact absurd hsep (by decide)
      · exact hsign hmem
  obtain ⟨A₁, rfl, -⟩ := carries_front hne hat hhead huris
  have htext : A₁ ++ (name ++ sep :: v₀) ++ secret ++ B₁ =
      A₁ ++ (name ++ sep :: ((v₀ ++ secret) ++ B₁)) := by
    simp only [List.append_assoc, List.cons_append]
  obtain ⟨hvalue, -⟩ := entry_replaced hname hsep (List.append_ne_nil_of_right_ne_nil v₀ hne)
    (List.forall_mem_append.mpr ⟨hv₀, hsecret⟩) htext
  have hpos := List.length_pos_iff.mpr hne
  refine Edit.not_carries_of_replaced (i := 0) hpos ?_ hentries
  have hlength : (A₁ ++ (name ++ sep :: v₀)).length + 0 =
      A₁.length + (name.length + 1 + v₀.length) := by
    simp only [List.length_append, List.length_cons]
    omega
  rw [hlength]
  exact hvalue _ (by rw [List.length_append]; omega)

end Taken

/-! ## Safe places -/

theorem IsKey.isWord {key : List Char} (h : IsKey key) : IsWord key :=
  List.mem_of_mem_take (i := 4) h

theorem isUserinfoChar_iff {c : Char} (h : isUserinfoChar c = true) :
    isSpace c = false ∧ c ≠ '/' ∧ c ≠ '@' := by
  simp only [isUserinfoChar, Bool.and_eq_true, Bool.not_eq_true', bne_iff_ne] at h
  exact ⟨h.1.1.1.1.1.1, h.1.1.1.1.1.2, h.2⟩

namespace Carrier

variable {c : Carrier} {secret before after : List Char}

/-- **From a safe place the secret is taken**, whatever stands around. -/
theorem hidden_of_safe (h : c.IsSecret secret) (hsafe : c.Safe secret) :
    ¬ c.Leaks before secret after := by
  have hopen : False → ∃ d B', c.tail ++ after = d :: B' ∧ isSpace d = false := False.elim
  cases c with
  | header header =>
    rcases hsafe with huri | hentry
    · rw [Leaks, ← List.append_nil (before ++ _)]
      exact not_stays_of_holdsUri (Nat.zero_le 1) huri
    · exact not_stays_of_holdsEntry h.space hopen hentry
  | uri u =>
    have hchars := h.userinfo u rfl
    have hsign : '@' ∉ secret := fun hmem => (isUserinfoChar_iff (hchars _ hmem)).2.2 rfl
    have hline : before ++ (Carrier.uri u).lead =
        (before ++ u.scheme) ++ ("://".toList ++ u.user ++ [':']) := by
      simp only [lead, List.append_assoc]
    by_cases huser : u.user = []
    · rcases hsafe with hne | ⟨x, name, hname, hscheme⟩ | hentry
      · exact absurd huser hne
      · -- the scheme ends with a word, and what follows is taken as its value
        have hfront : before ++ (Carrier.uri u).lead =
            (before ++ x) ++ (name ++ ':' :: "//:".toList) := by
          rw [hline, huser, hscheme]
          simp
        rw [Leaks, hfront]
        refine not_stays_of_word hname rfl (forall_of_all rfl) (by decide) h.ne_nil h.space ?_
        exact fun hhead => hsign (List.mem_of_head? hhead)
      · exact not_stays_of_holdsEntry h.space (fun _ => ⟨'@', after, rfl, by decide⟩) hentry
    · have huri : IsUri u.user secret :=
        ⟨huser, fun hmem => (u.user_char _ hmem).2 rfl, h.ne_nil, hsign⟩
      rw [Leaks, hline]
      exact not_stays_of_user huri fun hmem =>
        (isUserinfoChar_iff (u.user_char _ hmem).1).2.2 rfl
  | entry e =>
    rcases hsafe with huri | hentry | ⟨hblanks, hblanks', hhead⟩
    · by_cases hblanks' : e.blanks' = []
      · rw [if_pos hblanks'] at huri
        have hline : before ++ (Carrier.entry e).lead =
            (before ++ (e.key ++ e.blanks)) ++ [e.sep] := by
          simp [lead, hblanks']
        rw [Leaks, hline]
        exact not_stays_of_holdsUri (Nat.le_refl 1) huri
      · rw [if_neg hblanks'] at huri
        rw [Leaks, ← List.append_nil (before ++ _)]
        exact not_stays_of_holdsUri (Nat.zero_le 1) huri
    · exact not_stays_of_holdsEntry h.space hopen hentry
    · have hline : (Carrier.entry e).lead = e.key ++ e.sep :: [] := by
        simp [lead, hblanks, hblanks']
      rw [Leaks, hline]
      exact not_stays_of_word e.key_eq.isWord e.sep_eq (fun _ h => absurd h List.not_mem_nil)
        List.not_mem_nil h.ne_nil h.space hhead
  | member m =>
    rcases hsafe with huri | hentry
    · rw [Leaks, ← List.append_nil (before ++ _)]
      exact not_stays_of_holdsUri (Nat.zero_le 1) huri
    · exact not_stays_of_holdsEntry h.space (fun _ => ⟨'"', after, rfl, by decide⟩) hentry

end Carrier

end Redaction

end FinanceIntelligence
