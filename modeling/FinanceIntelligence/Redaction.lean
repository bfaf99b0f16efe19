import FinanceIntelligence.EditScripts
import FinanceIntelligence.GroupPatterns
import FinanceIntelligence.PrefixCodes

/-!
# Redaction of log lines

`redact_text` (redaction.py) rewrites a line three times: the passwords of connection URIs, the
values of entries, the credentials of `Bearer`. Each pass is an edit script of what its pattern
finds, so that it says which characters are left; a literal of a replacement that repeats what it
replaces counts as left.

* `mem_uriPattern`, `mem_entryPattern`, `mem_bearerPattern` — what the patterns **match**;
* `matchAt_uriPattern_iff`, `entry_maximal` — **which** match is taken;
* `rewrites_uri`, `rewrites_entry`, `rewrites_bearer` — the passes are **about the line**.
-/

namespace FinanceIntelligence

namespace Redaction

open Pattern

/-! ## Characters -/

/-- `\s`. -/
def isSpace (c : Char) : Bool :=
  let n := c.toNat
  (9 ≤ n && n ≤ 13) || (28 ≤ n && n ≤ 32) || n == 0x85 || n == 0xA0 || n == 0x1680 ||
    (0x2000 ≤ n && n ≤ 0x200A) || n == 0x2028 || n == 0x2029 || n == 0x202F || n == 0x205F ||
    n == 0x3000

/-- The lower-case letter that `re.IGNORECASE` compares: besides the capitals it takes the long s,
the sign of the kelvin and the Turkish letters. -/
def foldCase (c : Char) : Char :=
  if c = 'ſ' then 's'
  else if c = '\u212a' then 'k'
  else if c = 'ı' ∨ c = 'İ' then 'i'
  else c.toLower

/-- `[A-Za-z0-9\-\._~\+\/]` with `re.IGNORECASE`. -/
def credentialChar (c : Char) : Bool :=
  (foldCase c).isLower || c.isDigit || c == '-' || c == '.' || c == '_' || c == '~' || c == '+' ||
    c == '/'

/-! ## Patterns -/

/-- A text. -/
def literal (text : List Char) : Pattern (List Char) := chars (text.map fun a c => c == a)

/-- A word, with `re.IGNORECASE`. -/
def word (w : List Char) : Pattern (List Char) := chars (w.map fun a c => foldCase c == a)

/-- The words of a list: `a|b|…`. -/
def oneOf : List (List Char) → Pattern (List Char)
  | [] => fun _ => []
  | w :: words => alt (word w) (oneOf words)

/-- The names of the entries whose values are redacted. -/
def secretWords : List (List Char) :=
  ["password".toList, "secret".toList, "token".toList, "key".toList, "authorization".toList,
    "bearer".toList]

/-- `[:=]`. -/
def isSeparator (c : Char) : Bool := c == ':' || c == '='

/-- `://([^:]+):([^@]+)@`. -/
def uriPattern : Pattern (List Char × List Char) := do
  let _ ← literal "://".toList
  let user ← many1 (· != ':')
  let _ ← one (· == ':')
  let password ← many1 (· != '@')
  let _ ← one (· == '@')
  return (user, password)

/-- The parts of an entry. -/
structure Entry where
  name : List Char
  /-- the blanks in front of the separator -/
  blanks : List Char
  separator : Char
  /-- the blanks behind it -/
  blanks' : List Char
  value : List Char

/-- `(password|secret|token|key|authorization|bearer)\s*[:=]\s*\S+`. -/
def entryPattern : Pattern Entry := do
  let name ← oneOf secretWords
  let blanks ← many isSpace
  let separator ← one isSeparator
  let blanks' ← many isSpace
  let value ← many1 fun c => !isSpace c
  return ⟨name, blanks, separator, blanks', value⟩

/-- The parts of a credential. -/
structure Credential where
  /-- `Bearer` -/
  scheme : List Char
  /-- the blanks behind it -/
  blanks : List Char
  /-- the credential -/
  token : List Char

/-- `Bearer\s+[A-Za-z0-9\-\._~\+\/]+=*`. -/
def bearerPattern : Pattern Credential := do
  let scheme ← word "bearer".toList
  let blanks ← many1 isSpace
  let token ← many1 credentialChar
  let padding ← many (· == '=')
  return ⟨scheme, blanks, token ++ padding⟩

/-! ## Replacements -/

/-- `[REDACTED]`. -/
def redacted : List Char := "[REDACTED]".toList

/-- `://\1:[REDACTED]@`. -/
def uriEdits (groups : List Char × List Char) : List (Edit Char) :=
  Edit.keeps ("://".toList ++ groups.1 ++ [':']) ++ Edit.swap groups.2 redacted ++
    Edit.keeps ['@']

/-- `\1=[REDACTED]`. -/
def entryEdits (e : Entry) : List (Edit Char) :=
  Edit.keeps e.name ++
    if e.separator = '=' then
      Edit.swap e.blanks [] ++ Edit.keeps ['='] ++ Edit.swap (e.blanks' ++ e.value) redacted
    else Edit.swap (e.blanks ++ e.separator :: (e.blanks' ++ e.value)) ('=' :: redacted)

/-- A letter in place of another one. -/
def reletter (a c : Char) : Edit Char := if c = a then .keep c else .replace c [] [a]

/-- `Bearer [REDACTED]`. -/
def bearerEdits (t : Credential) : List (Edit Char) :=
  List.zipWith reletter "Bearer".toList t.scheme ++
    Edit.swap (t.blanks ++ t.token) (' ' :: redacted)

/-! ## The passes -/

/-- The first pass. -/
def redactUris (text : List Char) : List (Edit Char) := rewrite uriPattern.matchAt uriEdits text

/-- The second pass. -/
def redactEntries (text : List Char) : List (Edit Char) :=
  rewrite entryPattern.matchAt entryEdits text

/-- The third pass. -/
def redactCredentials (text : List Char) : List (Edit Char) :=
  rewrite bearerPattern.matchAt bearerEdits text

/-- `redact_text`. -/
def redactText (text : List Char) : List Char :=
  if text = [] then []
  else
    let text := Edit.result (redactUris text)
    let text := Edit.result (redactEntries text)
    Edit.result (redactCredentials text)

/-! ## What the patterns match -/

section Patterns

variable {x y : Spot} {u : List Char}

theorem mem_literal {text : List Char} :
    (u, y) ∈ literal text x ↔ x.Leads u y ∧ u = text := by
  rw [literal, mem_chars, List.forall₂_map_left_iff]
  refine and_congr_right fun _ => ?_
  simp only [beq_iff_eq]
  constructor
  · intro h
    have hflip : List.Forall₂ (· = ·) u text := h.flip
    exact List.forall₂_eq_eq_eq ▸ hflip
  · rintro rfl
    exact List.forall₂_same.mpr fun _ _ => rfl

theorem mem_word {w : List Char} :
    (u, y) ∈ word w x ↔ x.Leads u y ∧ u.map foldCase = w := by
  rw [word, mem_chars, List.forall₂_map_left_iff]
  refine and_congr_right fun _ => ?_
  simp only [beq_iff_eq]
  constructor
  · intro h
    have hmap : List.Forall₂ (· = ·) (u.map foldCase) w :=
      List.forall₂_map_left_iff.mpr h.flip
    exact List.forall₂_eq_eq_eq ▸ hmap
  · rintro rfl
    exact List.forall₂_map_left_iff.mpr (List.forall₂_same.mpr fun _ _ => rfl)

theorem mem_oneOf {words : List (List Char)} :
    (u, y) ∈ oneOf words x ↔ x.Leads u y ∧ u.map foldCase ∈ words := by
  induction words with
  | nil => simp [oneOf]
  | cons w words ih =>
    rw [oneOf, mem_alt, mem_word, ih, List.mem_cons]
    tauto

/-- The parts of a connection URI. -/
structure IsUri (user password : List Char) : Prop where
  /-- there is a user -/
  user_ne : user ≠ []
  /-- a colon ends it -/
  colon : ':' ∉ user
  /-- there is a password -/
  password_ne : password ≠ []
  /-- an at sign ends it -/
  sign : '@' ∉ password

/-- The text of a connection URI, from the colon on. -/
def uriText (user password : List Char) : List Char :=
  "://".toList ++ user ++ ':' :: password ++ ['@']

theorem mem_uriPattern {user password : List Char} :
    ((user, password), y) ∈ uriPattern x ↔
      x.Leads (uriText user password) y ∧ IsUri user password := by
  simp only [uriPattern, mem_bind, mem_literal, mem_many1, mem_one, mem_pure, Prod.mk.injEq,
    beq_iff_eq, bne_iff_ne, ne_eq]
  constructor
  · rintro ⟨_, z₁, ⟨h₁, rfl⟩, user', z₂, ⟨h₂, hne, hcolon⟩, c, z₃, ⟨h₃, rfl⟩, password', z₄,
      ⟨h₄, hne', hsign⟩, d, z₅, ⟨h₅, rfl⟩, ⟨rfl, rfl⟩, rfl⟩
    refine ⟨?_, hne, fun h => hcolon _ h rfl, hne', fun h => hsign _ h rfl⟩
    simpa [uriText] using (((h₁.trans h₂).trans h₃).trans h₄).trans h₅
  · rintro ⟨hleads, hne, hcolon, hne', hsign⟩
    have hleads : x.Leads ("://".toList ++ (user ++ ([':'] ++ (password ++ ['@'])))) y := by
      simpa [uriText] using hleads
    obtain ⟨z₁, h₁, hleads⟩ := Spot.leads_append_iff.mp hleads
    obtain ⟨z₂, h₂, hleads⟩ := Spot.leads_append_iff.mp hleads
    obtain ⟨z₃, h₃, hleads⟩ := Spot.leads_append_iff.mp hleads
    obtain ⟨z₄, h₄, h₅⟩ := Spot.leads_append_iff.mp hleads
    exact ⟨_, z₁, ⟨h₁, rfl⟩, user, z₂, ⟨h₂, hne, fun c hc h => hcolon (h ▸ hc)⟩, ':', z₃,
      ⟨h₃, rfl⟩, password, z₄, ⟨h₄, hne', fun c hc h => hsign (h ▸ hc)⟩, '@', y, ⟨h₅, rfl⟩,
      ⟨rfl, rfl⟩, rfl⟩

/-- A place is the beginning of one connection URI only. -/
theorem uriText_append_inj {user password user' password' rest rest' : List Char}
    (h : IsUri user password) (h' : IsUri user' password')
    (heq : uriText user password ++ rest = uriText user' password' ++ rest') :
    user = user' ∧ password = password' ∧ rest = rest' := by
  simp only [uriText, List.append_assoc, List.cons_append, List.nil_append] at heq
  obtain ⟨huser, heq⟩ := append_cons_inj h.colon h'.colon (List.append_cancel_left heq)
  obtain ⟨hpassword, hrest⟩ := append_cons_inj h.sign h'.sign heq
  exact ⟨huser, hpassword, hrest⟩

/-- **The first pattern** takes the connection URI that stands here. -/
theorem matchAt_uriPattern_iff {user password : List Char} :
    uriPattern.matchAt x = some ((user, password), y) ↔
      x.Leads (uriText user password) y ∧ IsUri user password := by
  constructor
  · exact fun h => mem_uriPattern.mp (mem_of_matchAt h)
  · intro h
    have hsome : (uriPattern.matchAt x).isSome = true := by
      rw [matchAt, List.isSome_head?]
      exact List.ne_nil_of_mem (mem_uriPattern.mpr h)
    obtain ⟨⟨⟨user', password'⟩, y'⟩, hmatch⟩ := Option.isSome_iff_exists.mp hsome
    obtain ⟨hleads, hparts⟩ := mem_uriPattern.mp (mem_of_matchAt hmatch)
    obtain ⟨rfl, rfl, hrest⟩ := uriText_append_inj h.2 hparts (h.1.rest.symm.trans hleads.rest)
    rw [hmatch, Spot.ext (hleads.prev.trans h.1.prev.symm) hrest.symm]

/-- The name of an entry. -/
def IsWord (name : List Char) : Prop := name.map foldCase ∈ secretWords

/-- The parts of an entry. -/
structure IsEntry (e : Entry) : Prop where
  /-- the name is one of the words -/
  name : IsWord e.name
  blanks : ∀ c ∈ e.blanks, isSpace c = true
  separator : isSeparator e.separator = true
  blanks' : ∀ c ∈ e.blanks', isSpace c = true
  /-- there is a value -/
  value_ne : e.value ≠ []
  /-- it has no blank -/
  value : ∀ c ∈ e.value, isSpace c = false

/-- The text of an entry. -/
def Entry.text (e : Entry) : List Char :=
  e.name ++ e.blanks ++ e.separator :: (e.blanks' ++ e.value)

theorem mem_entryPattern {e : Entry} :
    (e, y) ∈ entryPattern x ↔ x.Leads e.text y ∧ IsEntry e := by
  simp only [entryPattern, mem_bind, mem_oneOf, mem_many, mem_many1, mem_one, mem_pure,
    Bool.not_eq_true']
  constructor
  · rintro ⟨name, z₁, ⟨h₁, hname⟩, blanks, z₂, ⟨h₂, hblanks⟩, separator, z₃, ⟨h₃, hseparator⟩,
      blanks', z₄, ⟨h₄, hblanks'⟩, value, z₅, ⟨h₅, hne, hvalue⟩, rfl, rfl⟩
    refine ⟨?_, hname, hblanks, hseparator, hblanks', hne, hvalue⟩
    simpa [Entry.text] using (((h₁.trans h₂).trans h₃).trans h₄).trans h₅
  · rintro ⟨hleads, hname, hblanks, hseparator, hblanks', hne, hvalue⟩
    have hleads :
        x.Leads (e.name ++ (e.blanks ++ ([e.separator] ++ (e.blanks' ++ e.value)))) y := by
      simpa [Entry.text] using hleads
    obtain ⟨z₁, h₁, hleads⟩ := Spot.leads_append_iff.mp hleads
    obtain ⟨z₂, h₂, hleads⟩ := Spot.leads_append_iff.mp hleads
    obtain ⟨z₃, h₃, hleads⟩ := Spot.leads_append_iff.mp hleads
    obtain ⟨z₄, h₄, h₅⟩ := Spot.leads_append_iff.mp hleads
    exact ⟨_, z₁, ⟨h₁, hname⟩, _, z₂, ⟨h₂, hblanks⟩, _, z₃, ⟨h₃, hseparator⟩, _, z₄,
      ⟨h₄, hblanks'⟩, _, y, ⟨h₅, hne, hvalue⟩, rfl, rfl⟩

/-- **The second pattern** takes the whole value. -/
theorem entry_maximal {e : Entry} (h : entryPattern.matchAt x = some (e, y)) :
    ∀ c ∈ y.rest.head?, isSpace c = true := by
  obtain ⟨_, z₁, -, h⟩ := matchAt_bind_eq_some h
  obtain ⟨_, z₂, -, h⟩ := matchAt_bind_eq_some h
  obtain ⟨_, z₃, -, h⟩ := matchAt_bind_eq_some h
  obtain ⟨_, z₄, -, h⟩ := matchAt_bind_eq_some h
  obtain ⟨_, h, -⟩ := matchAt_map_eq_some h
  intro c hc
  simpa using matchAt_many1 h c hc

theorem mem_bearerPattern {t : Credential} (h : (t, y) ∈ bearerPattern x) :
    x.Leads (t.scheme ++ (t.blanks ++ t.token)) y ∧ t.scheme.map foldCase = "bearer".toList ∧
      t.blanks ≠ [] ∧ (∀ c ∈ t.blanks, isSpace c = true) ∧ t.token ≠ [] := by
  simp only [bearerPattern, mem_bind, mem_word, mem_many, mem_many1, mem_pure] at h
  obtain ⟨scheme, z₁, ⟨h₁, hscheme⟩, blanks, z₂, ⟨h₂, hne, hblanks⟩, token, z₃, ⟨h₃, hne', -⟩,
    padding, z₄, ⟨h₄, -⟩, rfl, rfl⟩ := h
  refine ⟨?_, hscheme, hne, hblanks, List.append_ne_nil_of_left_ne_nil hne' _⟩
  simpa [List.append_assoc] using ((h₁.trans h₂).trans h₃).trans h₄

end Patterns

/-! ## What the passes rewrite -/

theorem source_uriEdits (user password : List Char) :
    Edit.source (uriEdits (user, password)) = uriText user password := by
  simp [uriEdits, uriText]

theorem source_entryEdits (e : Entry) : Edit.source (entryEdits e) = e.text := by
  rw [entryEdits, Entry.text, Edit.source_append, Edit.source_keeps]
  split
  case isTrue heq => simp [heq]
  case isFalse => simp

theorem source_zipWith_reletter {w scheme : List Char} (h : scheme.length = w.length) :
    Edit.source (List.zipWith reletter w scheme) = scheme := by
  induction w generalizing scheme with
  | nil => simpa [Edit.source] using (List.eq_nil_of_length_eq_zero h).symm
  | cons a w ih =>
    cases scheme with
    | nil => cases h
    | cons c scheme =>
      have htail := ih (Nat.succ.inj h)
      rw [List.zipWith_cons_cons, reletter]
      split <;> simp [Edit.source, htail]

theorem source_bearerEdits (t : Credential) (h : t.scheme.map foldCase = "bearer".toList) :
    Edit.source (bearerEdits t) = t.scheme ++ (t.blanks ++ t.token) := by
  have hlength : t.scheme.length = "Bearer".toList.length := by
    have := congrArg List.length h
    rwa [List.length_map] at this
  rw [bearerEdits, Edit.source_append, source_zipWith_reletter hlength, Edit.source_swap]

theorem rewrites_uri : Rewrites uriPattern.matchAt uriEdits := by
  rintro x ⟨user, password⟩ y h
  rw [source_uriEdits]
  exact ⟨(matchAt_uriPattern_iff.mp h).1, by simp [uriText]⟩

theorem rewrites_entry : Rewrites entryPattern.matchAt entryEdits := by
  intro x e y h
  rw [source_entryEdits]
  obtain ⟨hleads, -⟩ := mem_entryPattern.mp (mem_of_matchAt h)
  exact ⟨hleads, by simp [Entry.text]⟩

theorem rewrites_bearer : Rewrites bearerPattern.matchAt bearerEdits := by
  intro x t y h
  obtain ⟨hleads, hscheme, -, -, hne⟩ := mem_bearerPattern (mem_of_matchAt h)
  rw [source_bearerEdits t hscheme]
  exact ⟨hleads, by simp [hne]⟩

end Redaction

end FinanceIntelligence
