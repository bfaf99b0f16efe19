import FinanceIntelligence.SecretPlaces

/-!
# Where secrets stay in log lines

* `Carrier.exists_leaks` — a secret that is not in a safe place **stays** in some line;
* `redactText_unsettled` — every text can stand in a line that is redacted **further** when it is
  redacted again;
* `Carrier.hides_iff` — the safe places are **all** the places from which a secret is always
  taken, and in none of them the redacted line is always settled.
-/

namespace FinanceIntelligence

namespace Redaction

open Pattern

/-! ## What a pass takes first -/

section First

variable {l m secret : List Char} {c d : Char}

theorem not_mem_of_forall {p : Char → Bool} {b : Bool} (h : ∀ c ∈ l, p c = b) (hd : p d ≠ b) :
    d ∉ l :=
  fun hmem => hd (h d hmem)

/-- A colon in front of something else than a slash. -/
theorem skips_uriAt_cons (hne : m ≠ []) (hcolon : ':' ∉ m) (hslash : '/' ∉ m) :
    Skips UriAt (c :: m) l := by
  refine skips_cons_iff.mpr ⟨not_uriAt_colon ?_, skips_uriAt hcolon⟩
  rw [List.head?_append_of_ne_nil m hne]
  exact fun hhead => hslash (List.mem_of_head? hhead)

/-- Without slashes there are no connection URIs. -/
theorem skips_uriAt_of_slash (h : '/' ∉ m) (hl : l.head? ≠ some '/') : Skips UriAt m l := by
  induction m with
  | nil => exact skips_nil
  | cons c m ih =>
    obtain ⟨-, hm⟩ := not_or.mp (List.mem_cons.not.mp h)
    refine skips_cons_iff.mpr ⟨not_uriAt_colon ?_, ih hm⟩
    cases m with
    | nil => exact hl
    | cons d m => exact fun hd => hm (Option.some.inj hd ▸ List.mem_cons_self)

/-- Nothing is taken of a secret without a connection URI in it, if no at sign follows. -/
theorem skips_uriAt_of_not_holdsUri (h : ¬ HoldsUri secret) (hl : '@' ∉ l) :
    Skips UriAt secret l := by
  rintro m₁ m₂ rfl - ⟨user, password, rest, huri, heq⟩
  rcases List.append_eq_append_iff.mp heq with ⟨a, htext, hrest⟩ | ⟨y, rfl, -⟩
  · rcases List.eq_nil_or_concat a with rfl | ⟨a, d, rfl⟩
    · exact h ⟨m₁, user, password, [], huri, by rw [htext, List.append_nil, List.append_nil]⟩
    · have hlast := congrArg List.getLast? htext
      rw [uriText, List.getLast?_concat, List.concat_eq_append, ← List.append_assoc,
        List.getLast?_concat] at hlast
      obtain rfl := Option.some.inj hlast
      exact hl (by simp [hrest])
  · exact h ⟨m₁, user, password, y, huri, rfl⟩

/-- The entry that stands here is taken, up to a blank. -/
theorem matchAt_entryPattern {x y : Spot} {e : Entry} (h : IsEntry e) (hleads : x.Leads e.text y)
    (hend : ∀ c ∈ y.rest.head?, isSpace c = true) : entryPattern.matchAt x = some (e, y) := by
  have hsome : (entryPattern.matchAt x).isSome = true := by
    rw [matchAt, List.isSome_head?]
    exact List.ne_nil_of_mem (mem_entryPattern.mpr ⟨hleads, h⟩)
  obtain ⟨⟨e', y'⟩, hmatch⟩ := Option.isSome_iff_exists.mp hsome
  obtain ⟨hleads', h'⟩ := mem_entryPattern.mp (mem_of_matchAt hmatch)
  obtain ⟨rfl, hrest⟩ := entryText_append_inj h h' hend (entry_maximal hmatch)
    (hleads.rest.symm.trans hleads'.rest)
  rw [hmatch, Spot.ext (hleads'.prev.trans hleads.prev.symm) hrest.symm]

theorem rewriteAt_entry {e : Entry} (h : IsEntry e) (hend : ∀ c ∈ l.head?, isSpace c = true)
    (prev : Option Char) :
    rewriteAt entryPattern.matchAt entryEdits ⟨prev, e.text ++ l⟩ =
      entryEdits e ++
        rewriteAt entryPattern.matchAt entryEdits ⟨e.text.getLast?.or prev, l⟩ :=
  rewriteAt_of_some rewrites_entry (matchAt_entryPattern h ⟨rfl, rfl⟩ hend)

theorem rewriteAt_uri {user password : List Char} (h : IsUri user password)
    (prev : Option Char) :
    rewriteAt uriPattern.matchAt uriEdits ⟨prev, uriText user password ++ l⟩ =
      uriEdits (user, password) ++
        rewriteAt uriPattern.matchAt uriEdits ⟨(uriText user password).getLast?.or prev, l⟩ :=
  rewriteAt_of_some rewrites_uri (matchAt_uriPattern_iff.mpr ⟨⟨rfl, rfl⟩, h⟩)

theorem result_uriEdits {user password : List Char} (h : password ≠ []) :
    Edit.result (uriEdits (user, password)) =
      "://".toList ++ user ++ ':' :: redacted ++ ['@'] := by
  simp [uriEdits, Edit.result_swap h]

theorem result_entryEdits {e : Entry} (h : IsEntry e) :
    Edit.result (entryEdits e) = e.name ++ '=' :: redacted := by
  have hvalue : e.blanks' ++ e.value ≠ [] := List.append_ne_nil_of_right_ne_nil _ h.value_ne
  have hblanks : Edit.result (Edit.swap e.blanks []) = [] := by
    cases e.blanks <;> rfl
  rw [entryEdits, Edit.result_append, Edit.result_keeps]
  split
  case isTrue => simp [hblanks, Edit.result_swap hvalue]
  case isFalse =>
    rw [Edit.result_swap (List.append_ne_nil_of_right_ne_nil _ (List.cons_ne_nil _ _))]

end First

/-! ## What a secret lets through -/

section Secret

variable {secret A A₁ B B₁ u b w : List Char} {l : List (Edit Char)} {prev : Option Char}

theorem HoldsEntry.mono {closed closed' : Prop} (h : HoldsEntry closed secret)
    (himp : closed → closed') : HoldsEntry closed' secret := by
  obtain ⟨x, name, sep, y, hname, hsep, hsecret, hcase⟩ := h
  exact ⟨x, name, sep, y, hname, hsep, hsecret, hcase.imp_right fun h => ⟨himp h.1, h.2⟩⟩

/-- What replaces a part of an entry has no blanks. -/
theorem space_of_mem_entryEdits {a : Char} {old new : List Char} {e : Entry}
    (h : .replace a old new ∈ entryEdits e) : ∀ c ∈ new, isSpace c = false := by
  have hswap : ∀ {old' new' : List Char}, .replace a old new ∈ Edit.swap old' new' →
      new = new' := by
    rintro (_ | ⟨b, old'⟩) new' hmem
    · cases hmem
    · cases List.mem_singleton.mp hmem
      rfl
  have hkeeps : ∀ {text : List Char}, .replace a old new ∉ Edit.keeps text := by
    intro text hmem
    obtain ⟨_, -, heq⟩ := List.mem_map.mp hmem
    cases heq
  rw [entryEdits] at h
  rcases List.mem_append.mp h with h | h
  · exact absurd h hkeeps
  split at h
  case isTrue =>
    rcases List.mem_append.mp h with h | h
    · rcases List.mem_append.mp h with h | h
      · obtain rfl := hswap h
        exact fun _ h => absurd h List.not_mem_nil
      · exact absurd h hkeeps
    · obtain rfl := hswap h
      exact forall_of_all rfl
  case isFalse =>
    obtain rfl := hswap h
    exact forall_of_all rfl

/-- What is taken of an entry without blanks is its value, or the colon. -/
theorem index_of_replaced {e : Entry} {i : ℕ} (hblanks : e.blanks = [])
    (h : (Edit.kept (entryEdits e))[i]? = some false) :
    e.name.length ≤ i ∧ (i = e.name.length → e.separator ≠ '=') := by
  rw [kept_entryEdits, hblanks, List.length_nil, List.replicate_zero, List.nil_append] at h
  have hle : e.name.length ≤ i := by
    by_contra hlt
    rw [List.getElem?_append_left (by simpa using hlt), List.getElem?_replicate] at h
    simp at h
  refine ⟨hle, ?_⟩
  rintro rfl
  rw [List.getElem?_append_right (by simp), List.length_replicate, Nat.sub_self] at h
  simpa using h

/-- Where the second pass takes a part of a secret, there is an entry in it, if nothing that starts
before reaches it. -/
theorem holdsEntry_of_replaced {i : ℕ} (hspace : ∀ c ∈ secret ++ B, isSpace c = false)
    (hi : i < secret.length)
    (h : (Edit.kept (rewriteAt entryPattern.matchAt entryEdits ⟨prev, secret ++ B⟩))[i]? =
      some false) : HoldsEntry (B ≠ []) secret := by
  obtain ⟨before, z, e, y, after, hin, hle, hentry⟩ := exists_match_of_replaced rewrites_entry h
  obtain ⟨-, he⟩ := mem_entryPattern.mp (mem_of_matchAt hin.found)
  have htext : secret ++ B = Edit.source before ++ (e.text ++ y.rest) := by
    have := hin.source rewrites_entry
    rwa [source_entryEdits] at this
  -- the entry has no blanks, and its separator belongs to the secret
  have hblanks : e.blanks = [] := by
    refine List.eq_nil_iff_forall_not_mem.mpr fun c hc => ?_
    have hnot := hspace c (by rw [htext]; simp [Entry.text, hc])
    rw [he.blanks c hc] at hnot
    cases hnot
  obtain ⟨hlow, hcolon⟩ := index_of_replaced hblanks hentry
  have htext : secret ++ B = (Edit.source before ++ (e.name ++ [e.separator])) ++
      (e.blanks' ++ (e.value ++ y.rest)) := by
    rw [htext, Entry.text, hblanks]
    simp
  obtain ⟨v, rfl⟩ : Edit.source before ++ (e.name ++ [e.separator]) <+: secret := by
    refine List.prefix_of_prefix_length_le ⟨_, htext.symm⟩ (List.prefix_append secret B) ?_
    simp only [List.length_append, List.length_singleton]
    omega
  refine ⟨Edit.source before, e.name, e.separator, v, he.name, he.separator, by simp, ?_⟩
  by_cases hv : v = []
  · -- it is the end of the secret, so that the value follows
    subst hv
    have hrest : B = e.blanks' ++ (e.value ++ y.rest) := by
      rw [List.append_nil] at htext
      exact List.append_cancel_left htext
    have hsep : e.separator ≠ '=' := by
      refine hcolon ?_
      simp only [List.length_append, List.length_singleton, List.append_nil] at hi
      omega
    have hseparator := he.separator
    rw [isSeparator, Bool.or_eq_true, beq_iff_eq, beq_iff_eq] at hseparator
    refine .inr ⟨?_, hseparator.resolve_right hsep⟩
    simp [hrest, he.value_ne]
  · exact .inl hv

/-- **A secret without an entry in it** is carried over by the second pass, if nothing that starts
before it reaches it. -/
theorem exists_carries (hne : secret ≠ []) (hspace : ∀ c ∈ secret ++ B, isSpace c = false)
    (h : ¬ HoldsEntry (B ≠ []) secret) :
    ∃ B', Edit.Carries (rewriteAt entryPattern.matchAt entryEdits ⟨prev, secret ++ B⟩)
      [] secret B [] B' ∧ ∀ c ∈ B', isSpace c = false := by
  have hsource : Edit.source (rewriteAt entryPattern.matchAt entryEdits ⟨prev, secret ++ B⟩) =
      [] ++ secret ++ B := source_rewriteAt rewrites_entry _
  have hkept : ∀ i < secret.length,
      (Edit.kept (rewriteAt entryPattern.matchAt entryEdits ⟨prev, secret ++ B⟩))[
        ([] : List Char).length + i]? = some true := by
    intro i hi
    rw [List.length_nil, Nat.zero_add]
    have hbound : i <
        (Edit.kept (rewriteAt entryPattern.matchAt entryEdits ⟨prev, secret ++ B⟩)).length := by
      rw [Edit.length_kept, hsource]
      simp only [List.length_append]
      omega
    rw [List.getElem?_eq_getElem hbound, Option.some_inj]
    by_contra hfalse
    have hreplaced :
        (Edit.kept (rewriteAt entryPattern.matchAt entryEdits ⟨prev, secret ++ B⟩))[i]? =
          some false := by
      rw [List.getElem?_eq_getElem hbound, Bool.eq_false_iff.mpr hfalse]
    exact h (holdsEntry_of_replaced hspace hi hreplaced)
  obtain ⟨A', B', hcarries⟩ := (Edit.carries_iff hne hsource).mpr hkept
  obtain ⟨before, after, hl, hbefore, hafter, rfl, rfl⟩ := hcarries
  obtain rfl := Edit.eq_nil_of_source_eq_nil hbefore
  refine ⟨_, ⟨[], after, hl, rfl, hafter, rfl, rfl⟩, Edit.forall_mem_result ?_ ?_⟩
  · rw [hafter]
    exact fun c hc => hspace c (List.mem_append_right secret hc)
  · intro a old new hmem
    obtain ⟨e, he⟩ := exists_of_mem_rewriteAt rewrites_entry
      (hl ▸ List.mem_append_right _ hmem)
    exact space_of_mem_entryEdits he

/-- A text in which no letter stands in front of a blank, up to its end: first without blanks, then
without letters. -/
structure Parted (u b : List Char) : Prop where
  /-- no blanks -/
  space : ∀ c ∈ u, isSpace c = false
  /-- it does not end with a letter -/
  last : ∀ c ∈ u.getLast?, isLetter c = false
  /-- no letters -/
  letter : ∀ c ∈ b, isLetter c = false

theorem Parted.of_getLast {d : Char} (hspace : ∀ c ∈ u, isSpace c = false)
    (hlast : u.getLast? = some d) (hd : isLetter d = false)
    (hletter : ∀ c ∈ b, isLetter c = false) : Parted u b where
  space := hspace
  last := by
    rintro c hc
    obtain rfl := Option.some.inj (hlast.symm.trans hc)
    exact hd
  letter := hletter

theorem isChain_of_space (h : ∀ c ∈ u, isSpace c = false) : u.IsChain Apart :=
  List.isChain_iff_forall_rel_of_append_cons_cons.mpr fun _ c _ _ heq => .inr (h c (by simp [heq]))

theorem isChain_of_letter (h : ∀ c ∈ u, isLetter c = false) : u.IsChain Apart :=
  List.isChain_iff_forall_rel_of_append_cons_cons.mpr fun c _ _ _ heq => .inl (h c (by simp [heq]))

theorem Parted.isChain (h : Parted u b) (hw : ∀ c ∈ w, isSpace c = false) :
    (u ++ b ++ w).IsChain Apart := by
  refine List.IsChain.append (.append (isChain_of_space h.space) (isChain_of_letter h.letter) ?_)
    (isChain_of_space hw) ?_
  · exact fun c hc _ _ => .inl (h.last c hc)
  · exact fun _ _ d hd => .inr (hw d (List.mem_of_mem_head? hd))

/-- **A secret without an entry in it stays**, if the first pass carries it over, and nothing that
the second one finds before reaches it: the third one has nothing to take. -/
theorem stays_of_rewriteAt (hne : secret ≠ []) (hspace : ∀ c ∈ secret ++ B₁, isSpace c = false)
    (hentry : ¬ HoldsEntry (B₁ ≠ []) secret)
    (huris : Edit.Carries (redactUris (A ++ secret ++ B)) A secret B A₁ B₁)
    (hl : redactEntries (A₁ ++ secret ++ B₁) =
      l ++ rewriteAt entryPattern.matchAt entryEdits ⟨prev, secret ++ B₁⟩)
    (hparted : Parted u b) (hresult : Edit.result l = u ++ b) : Stays A secret B := by
  obtain ⟨B₂, hcarries, hB₂⟩ := exists_carries hne hspace hentry
  have hsource : Edit.source l = A₁ := by
    have htext := congrArg Edit.source hl
    rw [redactEntries, source_rewrite rewrites_entry, Edit.source_append,
      source_rewriteAt rewrites_entry, List.append_assoc] at htext
    exact (List.append_cancel_right htext).symm
  have hentries := hcarries.prepend l
  rw [← hl, hsource, List.append_nil, List.append_nil] at hentries
  have hsecret : ∀ c ∈ secret ++ B₂, isSpace c = false :=
    List.forall_mem_append.mpr ⟨fun c hc => hspace c (List.mem_append_left B₁ hc), hB₂⟩
  have hchain := hparted.isChain hsecret
  rw [← hresult, ← List.append_assoc] at hchain
  have hall : redactCredentials (Edit.result l ++ secret ++ B₂) =
      Edit.keeps (Edit.result l ++ secret ++ B₂) :=
    rewrite_of_skips bearerAt_of_match (skips_bearerAt_of_isChain hchain)
  exact ⟨A₁, B₁, _, B₂, _, B₂, huris, hentries, hall ▸ Edit.carries_keeps⟩

/-- Where there is no connection URI, the first pass carries all over. -/
theorem carries_of_skips (h : Skips UriAt (A ++ secret ++ B) []) :
    Edit.Carries (redactUris (A ++ secret ++ B)) A secret B A B := by
  rw [redactUris, rewrite_of_skips uriAt_of_match h]
  exact Edit.carries_keeps

/-- It stays, too, if the second pass finds nothing before it. -/
theorem stays_of_skips (hne : secret ≠ []) (hspace : ∀ c ∈ secret ++ B₁, isSpace c = false)
    (hentry : ¬ HoldsEntry (B₁ ≠ []) secret)
    (huris : Edit.Carries (redactUris (A ++ secret ++ B)) A secret B (u ++ b) B₁)
    (hskips : Skips EntryAt (u ++ b) (secret ++ B₁)) (hparted : Parted u b) :
    Stays A secret B := by
  have hl : redactEntries (u ++ b ++ secret ++ B₁) =
      Edit.keeps (u ++ b) ++ rewriteAt entryPattern.matchAt entryEdits
        ⟨(u ++ b).getLast?.or none, secret ++ B₁⟩ := by
    rw [List.append_assoc, redactEntries, rewrite, Spot.start,
      rewriteAt_of_skips entryAt_of_match hskips]
  exact stays_of_rewriteAt hne hspace hentry huris hl hparted Edit.result_keeps

end Secret

/-! ## Where a secret stays -/

theorem isWord_of_eq {name w : List Char} (h : name.map foldCase = w) (hw : w ∈ secretWords) :
    IsWord name := by
  rw [IsWord, h]
  exact hw

theorem isEntry_key {sep : Char} {v : List Char} (hsep : isSeparator sep = true) (hne : v ≠ [])
    (hv : ∀ c ∈ v, isSpace c = false) : IsEntry ⟨"key".toList, [], sep, [], v⟩ where
  name := isWord_of_eq (w := "key".toList) rfl (by decide)
  blanks := fun _ hc => absurd hc List.not_mem_nil
  separator := hsep
  blanks' := fun _ hc => absurd hc List.not_mem_nil
  value_ne := hne
  value := hv

theorem BearerHeader.letters (h : BearerHeader) : ∀ c ∈ h.scheme, isLetter c = true :=
  (isWord_of_eq h.scheme_eq (by decide)).letters

namespace Carrier

variable {secret g : List Char}

/-- Behind an entry and blanks. -/
theorem stays_behind_entry {e : Entry} (he : IsEntry e) (hne : g ≠ [])
    (hhead : ∀ c ∈ g.head?, isSpace c = true) (hletter : ∀ c ∈ g, isLetter c = false)
    (hsecret : secret ≠ []) (hspace : ∀ c ∈ secret, isSpace c = false)
    (huri : Skips UriAt (e.text ++ g ++ secret) []) (hentry : ¬ HoldsEntry False secret) :
    Stays (e.text ++ g) secret [] := by
  have huris : Edit.Carries (redactUris (e.text ++ g ++ secret ++ [])) (e.text ++ g) secret []
      (e.text ++ g) [] := carries_of_skips (by rwa [List.append_nil])
  have hend : ∀ c ∈ (g ++ (secret ++ [])).head?, isSpace c = true := by
    rwa [List.head?_append_of_ne_nil g hne]
  have hentries : redactEntries (e.text ++ g ++ secret ++ []) =
      (entryEdits e ++ Edit.keeps g) ++ rewriteAt entryPattern.matchAt entryEdits
        ⟨g.getLast?.or (e.text.getLast?.or none), secret ++ []⟩ := by
    rw [redactEntries, rewrite, Spot.start, List.append_assoc, List.append_assoc,
      rewriteAt_entry he hend, rewriteAt_of_skips entryAt_of_match (skips_entryAt hletter),
      List.append_assoc]
  have hparted : Parted (e.name ++ '=' :: redacted) g := by
    refine .of_getLast (d := ']') (List.forall_mem_append.mpr ⟨fun c hc =>
      isSpace_of_isLetter (he.name.letters c hc), forall_of_all rfl⟩) ?_ rfl hletter
    exact List.getLast?_append_of_ne_nil _ (List.cons_ne_nil _ _)
  refine stays_of_rewriteAt hsecret ?_ ?_ huris hentries hparted ?_
  · rwa [List.append_nil]
  · exact fun h => hentry (h.mono fun hne => hne rfl)
  · rw [Edit.result_append, result_entryEdits he, Edit.result_keeps]

/-- A header without its credential is an entry. -/
theorem isEntry_header (h : BearerHeader) : IsEntry ⟨h.name, [], ':', h.gap, h.scheme⟩ where
  name := isWord_of_eq h.name_eq (by decide)
  blanks := fun _ hc => absurd hc List.not_mem_nil
  separator := rfl
  blanks' := h.gap_space
  value_ne := fun hnil => by
    have hscheme := h.scheme_eq
    rw [show h.scheme = [] from hnil] at hscheme
    cases hscheme
  value := fun c hc => isSpace_of_isLetter (h.letters c hc)

/-- **The credential of a header** stays. -/
theorem leaks_header {h : BearerHeader} (hsecret : (header h).IsSecret secret)
    (hsafe : ¬ (header h).Safe secret) : (header h).Leaks [] secret [] := by
  obtain ⟨hnoUri, hnoEntry⟩ := not_or.mp hsafe
  have he := isEntry_header h
  have hgap : ∀ {d : Char}, isSpace d = false → isLetter d = false →
      d ∉ h.gap ++ h.scheme ++ h.blanks := by
    intro d hspace hletter hmem
    rcases List.mem_append.mp hmem with hmem | hmem
    · rcases List.mem_append.mp hmem with hmem | hmem
      · exact not_mem_of_forall h.gap_space (by simp [hspace]) hmem
      · exact not_mem_of_forall h.letters (by simp [hletter]) hmem
    · exact not_mem_of_forall h.blanks_space (by simp [hspace]) hmem
  have huri : Skips UriAt (h.name ++ (':' :: (h.gap ++ h.scheme ++ h.blanks) ++ secret)) [] := by
    refine skips_append_iff.mpr ⟨skips_uriAt ?_, skips_append_iff.mpr ⟨?_, ?_⟩⟩
    · exact not_mem_of_forall he.name.letters (by decide)
    · exact skips_uriAt_cons (List.append_ne_nil_of_right_ne_nil _ h.blanks_ne)
        (hgap rfl rfl) (hgap rfl rfl)
    · exact skips_uriAt_of_not_holdsUri hnoUri List.not_mem_nil
  have hlead : [] ++ (header h).lead =
      Entry.text ⟨h.name, [], ':', h.gap, h.scheme⟩ ++ h.blanks := by
    simp [lead, Entry.text]
  rw [Leaks, hlead]
  refine stays_behind_entry he h.blanks_ne ?_ ?_ hsecret.ne_nil hsecret.space ?_ hnoEntry
  · exact fun c hc => h.blanks_space c (List.mem_of_mem_head? hc)
  · exact fun c hc => isLetter_of_isSpace (h.blanks_space c hc)
  · simpa [Entry.text] using huri

theorem isSpace_of_isSchemeChar {c : Char} (h : isSchemeChar c = true) :
    isSpace c = false ∧ isSeparator c = false := by
  change (c.isUpper || c.isLower || c.isDigit || c == '+' || c == '-' || c == '.') = true at h
  simp only [Bool.or_eq_true, beq_iff_eq] at h
  have hrange : 43 ≤ c.toNat ∧ c.toNat ≤ 122 ∧ c.toNat ≠ 58 ∧ c.toNat ≠ 61 := by
    rcases h with ((((h | h) | h) | rfl) | rfl) | rfl
    · have hupper := toNat_of_isUpper h
      omega
    · have hlower := toNat_of_isLower h
      omega
    · have hdigit : 48 ≤ c.toNat ∧ c.toNat ≤ 57 := Char.isDigit_iff_toNat.mp h
      omega
    · decide
    · decide
    · decide
  constructor
  · simp only [isSpace, Bool.or_eq_false_iff, Bool.and_eq_false_iff, decide_eq_false_iff_not,
      beq_eq_false_iff_ne]
    omega
  · rw [isSeparator, Bool.or_eq_false_iff, beq_eq_false_iff_ne, beq_eq_false_iff_ne]
    constructor
    · rintro rfl
      exact hrange.2.2.1 rfl
    · rintro rfl
      exact hrange.2.2.2 rfl

/-- **The password of a URI without a user** stays, unless the scheme ends with a word. -/
theorem leaks_uri {u : ConnectionUri} (hsecret : (uri u).IsSecret secret)
    (hsafe : ¬ (uri u).Safe secret) : (uri u).Leaks [] secret [] := by
  obtain ⟨huser, hsafe⟩ := not_or.mp hsafe
  obtain ⟨hscheme, hnoEntry⟩ := not_or.mp hsafe
  have hslash : '/' ∉ ':' :: (secret ++ ['@']) := by
    have hnot : '/' ∉ secret := fun hmem =>
      (isUserinfoChar_iff (hsecret.userinfo u rfl _ hmem)).2.1 rfl
    simp [hnot]
  have huri : Skips UriAt (u.scheme ++ ':' :: ("//".toList ++ ':' :: (secret ++ ['@']))) [] := by
    refine skips_append_iff.mpr ⟨skips_uriAt ?_, skips_cons_iff.mpr ⟨?_, skips_append_iff.mpr
      ⟨skips_uriAt (by decide), skips_uriAt_of_slash hslash (by simp)⟩⟩⟩
    · exact not_mem_of_forall u.scheme_char (by decide)
    · -- there would be no user
      rintro ⟨user, password, rest, hparts, heq⟩
      obtain ⟨a, user, rfl⟩ := List.exists_cons_of_ne_nil hparts.user_ne
      have hcolon : ':' = a := by
        have hfourth := congrArg (·[3]?) heq
        exact Option.some.inj hfourth
      exact hparts.colon (hcolon ▸ List.mem_cons_self)
  have hentries : Skips EntryAt (u.scheme ++ "://:".toList ++ []) (secret ++ ['@']) := by
    rw [List.append_nil]
    refine skips_append_iff.mpr ⟨?_, skips_entryAt (forall_of_all rfl)⟩
    rintro m₁ m₂ hm - hentry
    have hword : IsWord m₂ := by
      refine entryAt_word (fun c hc => isSpace_of_isSchemeChar (u.scheme_char c ?_)) ?_ hentry
      · exact hm ▸ List.mem_append_right m₁ hc
      · exact forall_head_cons (.inr rfl)
    exact hscheme ⟨m₁, m₂, hword, hm⟩
  have hlead : [] ++ (uri u).lead = u.scheme ++ "://:".toList ++ [] := by
    simp [lead, not_not.mp huser]
  have hparted : Parted (u.scheme ++ "://:".toList) [] := by
    refine .of_getLast (d := ':') (List.forall_mem_append.mpr ⟨fun c hc => (isSpace_of_isSchemeChar
      (u.scheme_char c hc)).1, forall_of_all rfl⟩) ?_ rfl fun _ h => absurd h List.not_mem_nil
    exact List.getLast?_append_of_ne_nil _ (by decide)
  rw [Leaks, hlead]
  refine stays_of_skips hsecret.ne_nil ?_ ?_ (carries_of_skips ?_) hentries hparted
  · exact List.forall_mem_append.mpr ⟨hsecret.space, forall_of_all rfl⟩
  · exact fun h => hnoEntry (h.mono fun _ => trivial)
  · simpa [tail] using huri

/-- **A value of a JSON object** stays. -/
theorem leaks_member {m : JsonMember} (hsecret : (member m).IsSecret secret)
    (hsafe : ¬ (member m).Safe secret) : (member m).Leaks [] secret [] := by
  obtain ⟨hnoUri, hnoEntry⟩ := not_or.mp hsafe
  have hkey := m.key_eq.isWord.letters
  have huri : Skips UriAt (('"' :: (m.key ++ '"' :: m.blanks)) ++
      (':' :: (m.blanks' ++ ['"']) ++ (secret ++ ['"']))) [] := by
    refine skips_append_iff.mpr ⟨skips_uriAt ?_, skips_append_iff.mpr ⟨?_, skips_append_iff.mpr
      ⟨skips_uriAt_of_not_holdsUri hnoUri (by decide), skips_uriAt (by decide)⟩⟩⟩
    · simp [not_mem_of_forall hkey (d := ':') (by decide),
        not_mem_of_forall m.blanks_space (d := ':') (by decide)]
    · refine skips_uriAt_cons (List.append_ne_nil_of_right_ne_nil _ (List.cons_ne_nil _ _)) ?_ ?_
      · simp [not_mem_of_forall m.blanks'_space (d := ':') (by decide)]
      · simp [not_mem_of_forall m.blanks'_space (d := '/') (by decide)]
  have hletter : ∀ c ∈ m.blanks ++ ':' :: (m.blanks' ++ ['"']), isLetter c = false := by
    refine List.forall_mem_append.mpr ⟨fun c hc => isLetter_of_isSpace (m.blanks_space c hc), ?_⟩
    refine List.forall_mem_cons.mpr ⟨by decide, List.forall_mem_append.mpr ⟨?_, ?_⟩⟩
    · exact fun c hc => isLetter_of_isSpace (m.blanks'_space c hc)
    · exact forall_of_all rfl
  have hentries : Skips EntryAt (('"' :: (m.key ++ ['"'])) ++
      (m.blanks ++ ':' :: (m.blanks' ++ ['"']))) (secret ++ ['"']) := by
    refine skips_append_iff.mpr ⟨skips_cons_iff.mpr ⟨not_entryAt_cons rfl, skips_append_iff.mpr
      ⟨skips_entryAt_run hkey ?_, skips_entryAt (forall_of_all rfl)⟩⟩, skips_entryAt hletter⟩
    exact forall_head_cons (by decide)
  have hparted : Parted ('"' :: (m.key ++ ['"'])) (m.blanks ++ ':' :: (m.blanks' ++ ['"'])) := by
    refine .of_getLast (d := '"') (List.forall_mem_cons.mpr ⟨by decide,
      List.forall_mem_append.mpr ⟨fun c hc => isSpace_of_isLetter (hkey c hc), forall_of_all rfl⟩⟩)
      ?_ rfl hletter
    rw [← List.cons_append, List.getLast?_concat]
  have hlead : [] ++ (member m).lead =
      ('"' :: (m.key ++ ['"'])) ++ (m.blanks ++ ':' :: (m.blanks' ++ ['"'])) := by
    simp [lead]
  rw [Leaks, hlead]
  refine stays_of_skips hsecret.ne_nil ?_ ?_ (carries_of_skips ?_) hentries hparted
  · exact List.forall_mem_append.mpr ⟨hsecret.space, forall_of_all rfl⟩
  · exact fun h => hnoEntry (h.mono fun _ => trivial)
  · simpa [tail] using huri

/-- An entry with blanks, in two parts: up to the first blank, and without letters. -/
theorem exists_parts (e : KeyEntry) (h : ¬ (e.blanks = [] ∧ e.blanks' = [])) :
    ∃ v g, (entry e).lead = v ++ g ∧ v ≠ [] ∧ (∀ c ∈ v, isSpace c = false) ∧ g ≠ [] ∧
      (∀ c ∈ g.head?, isSpace c = true) ∧ ∀ c ∈ g, isLetter c = false := by
  have hkey : ∀ c ∈ e.key, isSpace c = false :=
    fun c hc => isSpace_of_isLetter (e.key_eq.isWord.letters c hc)
  have hblanks' : ∀ c ∈ e.blanks', isLetter c = false :=
    fun c hc => isLetter_of_isSpace (e.blanks'_space c hc)
  by_cases hblanks : e.blanks = []
  · have hne : e.blanks' ≠ [] := fun hblanks' => h ⟨hblanks, hblanks'⟩
    refine ⟨e.key ++ [e.sep], e.blanks', by simp [lead, hblanks], by simp, ?_, hne, ?_, hblanks'⟩
    · exact List.forall_mem_append.mpr
        ⟨hkey, List.forall_mem_singleton.mpr (isSpace_of_isSeparator e.sep_eq)⟩
    · exact fun c hc => e.blanks'_space c (List.mem_of_mem_head? hc)
  · refine ⟨e.key, e.blanks ++ e.sep :: e.blanks', by simp [lead], e.key_eq.isWord.ne_nil, hkey,
      List.append_ne_nil_of_left_ne_nil hblanks _, ?_, ?_⟩
    · rw [List.head?_append_of_ne_nil _ hblanks]
      exact fun c hc => e.blanks_space c (List.mem_of_mem_head? hc)
    · exact List.forall_mem_append.mpr
        ⟨fun c hc => isLetter_of_isSpace (e.blanks_space c hc),
          List.forall_mem_cons.mpr ⟨isLetter_of_isSeparator e.sep_eq, hblanks'⟩⟩

/-- **The value of an entry with blanks** stays behind another name and a colon. -/
theorem leaks_entry_of_blanks {e : KeyEntry} (hsecret : (entry e).IsSecret secret)
    (hsafe : ¬ (entry e).Safe secret) (h : ¬ (e.blanks = [] ∧ e.blanks' = [])) :
    (entry e).Leaks "key:".toList secret [] := by
  obtain ⟨hnoUri, hsafe⟩ := not_or.mp hsafe
  obtain ⟨hnoEntry, -⟩ := not_or.mp hsafe
  obtain ⟨v, g, hparts, hv, hvspace, hne, hhead, hletter⟩ := exists_parts e h
  have hkey := e.key_eq.isWord.letters
  let first : Entry := ⟨"key".toList, [], ':', [], v⟩
  have hfirst : IsEntry first := isEntry_key rfl hv hvspace
  have hvalue : Skips UriAt (e.sep :: e.blanks' ++ secret) [] := by
    by_cases hblanks' : e.blanks' = []
    · rw [if_pos hblanks'] at hnoUri
      rw [hblanks']
      exact skips_uriAt_of_not_holdsUri hnoUri List.not_mem_nil
    · rw [if_neg hblanks'] at hnoUri
      refine skips_append_iff.mpr ⟨skips_uriAt_cons hblanks' ?_ ?_, ?_⟩
      · exact not_mem_of_forall e.blanks'_space (by decide)
      · exact not_mem_of_forall e.blanks'_space (by decide)
      · exact skips_uriAt_of_not_holdsUri hnoUri List.not_mem_nil
  have huri : Skips UriAt ("key".toList ++ (':' :: (e.key ++ e.blanks) ++
      (e.sep :: e.blanks' ++ secret))) [] := by
    refine skips_append_iff.mpr ⟨skips_uriAt (by decide), skips_append_iff.mpr ⟨?_, hvalue⟩⟩
    refine skips_uriAt_cons (List.append_ne_nil_of_left_ne_nil e.key_eq.isWord.ne_nil _) ?_ ?_
    · simp [not_mem_of_forall hkey (d := ':') (by decide),
        not_mem_of_forall e.blanks_space (d := ':') (by decide)]
    · simp [not_mem_of_forall hkey (d := '/') (by decide),
        not_mem_of_forall e.blanks_space (d := '/') (by decide)]
  have hlead : "key:".toList ++ (entry e).lead = first.text ++ g := by
    rw [hparts]
    simp [first, Entry.text]
  rw [Leaks, hlead]
  refine stays_behind_entry hfirst hne hhead hletter hsecret.ne_nil hsecret.space ?_ hnoEntry
  rw [← hlead]
  simpa [lead] using huri

/-- **A value that starts with an at sign** stays, if the first pass takes the name for a
password. -/
theorem leaks_entry_of_sign {e : KeyEntry} (hsecret : (entry e).IsSecret secret)
    (hsafe : ¬ (entry e).Safe secret) (h : e.blanks = [] ∧ e.blanks' = []) :
    (entry e).Leaks "://u:".toList secret [] := by
  obtain ⟨hnoUri, hsafe⟩ := not_or.mp hsafe
  obtain ⟨hnoEntry, hhead⟩ := not_or.mp hsafe
  have hhead : secret.head? = some '@' := by
    by_contra hne
    exact hhead ⟨h.1, h.2, hne⟩
  obtain ⟨secret, rfl⟩ : ∃ secret', secret = '@' :: secret' := List.head?_eq_some_iff.mp hhead
  rw [if_pos h.2] at hnoUri
  have hkey := e.key_eq.isWord.letters
  have hparts : IsUri ['u'] (e.key ++ [e.sep]) := by
    refine ⟨by decide, by decide, by simp, ?_⟩
    have hsep : '@' ≠ e.sep := fun heq => absurd (heq.symm ▸ e.sep_eq) (by decide)
    simp [not_mem_of_forall hkey (d := '@') (by decide), hsep]
  have hrest : Skips UriAt secret [] := by
    have hall := skips_uriAt_of_not_holdsUri hnoUri (l := []) List.not_mem_nil
    exact (skips_cons_iff.mp (skips_cons_iff.mp hall).2).2
  have huris : Edit.Carries
      (redactUris ("://u:".toList ++ (entry e).lead ++ '@' :: secret ++ []))
      ("://u:".toList ++ (entry e).lead) ('@' :: secret) []
      ("://u:[REDACTED]".toList ++ []) [] := by
    have htext : "://u:".toList ++ (entry e).lead ++ '@' :: secret ++ [] =
        uriText ['u'] (e.key ++ [e.sep]) ++ (secret ++ []) := by
      simp [lead, h.1, h.2, uriText]
    refine ⟨Edit.keeps "://u:".toList ++ Edit.swap (e.key ++ [e.sep]) redacted, [], ?_, ?_, rfl, ?_,
      rfl⟩
    · rw [htext, redactUris, rewrite, Spot.start, rewriteAt_uri hparts,
        rewriteAt_of_skips uriAt_of_match hrest, rewriteAt_nil]
      simp [uriEdits, Edit.keeps]
    · simp [lead, h.1, h.2]
    · rw [Edit.result_append, Edit.result_keeps, Edit.result_swap hparts.password_ne]
      rfl
  have hentries : Skips EntryAt ("://".toList ++ (['u'] ++ (":[".toList ++
      ("REDACTED".toList ++ "]".toList)))) ('@' :: secret ++ []) := by
    refine skips_append_iff.mpr ⟨skips_entryAt (forall_of_all rfl), skips_append_iff.mpr ⟨?_,
      skips_append_iff.mpr ⟨skips_entryAt (forall_of_all rfl), skips_append_iff.mpr ⟨?_,
        skips_entryAt (forall_of_all rfl)⟩⟩⟩⟩
    · refine skips_cons_iff.mpr ⟨fun hat => ?_, skips_nil⟩
      obtain ⟨hword, -⟩ := entryAt_run (k := ['u']) (forall_of_all rfl) (forall_head_cons rfl) hat
      exact absurd hword (by rw [IsWord]; decide)
    · exact skips_entryAt_run (forall_of_all rfl) (forall_head_cons (by decide))
  have hparted : Parted "://u:[REDACTED]".toList [] :=
    .of_getLast (forall_of_all rfl) rfl (d := ']') rfl fun _ h => absurd h List.not_mem_nil
  refine stays_of_skips hsecret.ne_nil ?_ ?_ huris hentries hparted
  · rw [List.append_nil]
    exact hsecret.space
  · exact fun h => hnoEntry (h.mono fun hne => hne rfl)

/-- **A secret that is not in a safe place** stays in some line. -/
theorem exists_leaks {c : Carrier} (hsecret : c.IsSecret secret) (hsafe : ¬ c.Safe secret) :
    ∃ before after, c.Leaks before secret after := by
  cases c with
  | header h => exact ⟨[], [], leaks_header hsecret hsafe⟩
  | uri u => exact ⟨[], [], leaks_uri hsecret hsafe⟩
  | entry e =>
    by_cases h : e.blanks = [] ∧ e.blanks' = []
    · exact ⟨_, [], leaks_entry_of_sign hsecret hsafe h⟩
    · exact ⟨_, [], leaks_entry_of_blanks hsecret hsafe h⟩
  | member m => exact ⟨[], [], leaks_member hsecret hsafe⟩

end Carrier

/-! ## Lines that are not settled -/

section Unsettled

variable {k m m' rest user password : List Char} {e : Entry}

theorem result_redactUris (h : IsUri user password) (hm : Skips UriAt m rest) :
    ∃ rest', Edit.result (redactUris (uriText user password ++ (m ++ rest))) =
      "://".toList ++ user ++ ':' :: redacted ++ ['@'] ++ (m ++ rest') := by
  rw [redactUris, rewrite, Spot.start, rewriteAt_uri h, rewriteAt_of_skips uriAt_of_match hm,
    Edit.result_append, result_uriEdits h.password_ne, Edit.result_append, Edit.result_keeps]
  exact ⟨_, rfl⟩

theorem result_redactEntries (hk : Skips EntryAt k (e.text ++ (m ++ rest))) (he : IsEntry e)
    (hend : ∀ c ∈ (m ++ rest).head?, isSpace c = true) (hm : Skips EntryAt m rest) :
    ∃ rest', Edit.result (redactEntries (k ++ (e.text ++ (m ++ rest)))) =
      k ++ (e.name ++ '=' :: redacted) ++ m ++ rest' := by
  rw [redactEntries, rewrite, Spot.start, rewriteAt_of_skips entryAt_of_match hk,
    rewriteAt_entry he hend, rewriteAt_of_skips entryAt_of_match hm, Edit.result_append,
    Edit.result_keeps, Edit.result_append, result_entryEdits he, Edit.result_append,
    Edit.result_keeps, ← List.append_assoc, ← List.append_assoc]
  exact ⟨_, rfl⟩

theorem result_redactCredentials (hm : Skips BearerAt m rest) :
    ∃ rest', Edit.result (redactCredentials (m ++ rest)) = m ++ rest' := by
  rw [redactCredentials, rewrite, Spot.start, rewriteAt_of_skips bearerAt_of_match hm,
    Edit.result_append, Edit.result_keeps]
  exact ⟨_, rfl⟩

/-- A line that starts with a connection URI of which an entry is left when its password is
taken. -/
theorem exists_redactText (user password m rest : List Char) (e : Entry) (m' : List Char)
    (h : IsUri user password) (hm : Skips UriAt m rest)
    (htext : user ++ ':' :: redacted ++ ['@'] ++ m = e.text ++ m') (he : IsEntry e)
    (hend : ∃ c m'', m' = c :: m'' ∧ isSpace c = true) (hm' : ∀ rest, Skips EntryAt m' rest)
    (hb : ("://".toList ++ (e.name ++ '=' :: redacted) ++ m').all (foldCase · != 'b') = true) :
    ∃ rest', redactText (uriText user password ++ (m ++ rest)) =
      "://".toList ++ (e.name ++ '=' :: redacted) ++ m' ++ rest' := by
  obtain ⟨rest₁, huris⟩ := result_redactUris h hm
  have hparts : "://".toList ++ user ++ ':' :: redacted ++ ['@'] ++ (m ++ rest₁) =
      "://".toList ++ (e.text ++ (m' ++ rest₁)) := by
    rw [← List.append_assoc e.text, ← htext]
    simp only [List.append_assoc]
  have hend : ∀ c ∈ (m' ++ rest₁).head?, isSpace c = true := by
    obtain ⟨c, m'', rfl, hc⟩ := hend
    exact forall_head_cons hc
  obtain ⟨rest₂, hentries⟩ := result_redactEntries (k := "://".toList)
    (skips_entryAt (forall_of_all rfl)) he hend (hm' rest₁)
  have hskips : Skips BearerAt ("://".toList ++ (e.name ++ '=' :: redacted) ++ m') rest₂ :=
    skips_bearerAt fun c hc => bne_iff_ne.mp (List.all_eq_true.mp hb c hc)
  obtain ⟨rest₃, hcredentials⟩ := result_redactCredentials hskips
  refine ⟨rest₃, ?_⟩
  rw [redactText, if_neg (by simp [uriText])]
  dsimp only
  rw [huris, hparts, hentries, hcredentials]

end Unsettled

/-- **Not idempotent**: in front of every text something can stand so that the redacted line is
redacted further. -/
theorem redactText_unsettled (text : List Char) :
    ∃ before, redactText (redactText (before ++ text)) ≠ redactText (before ++ text) := by
  -- once: `://key=[REDACTED] 1:2@ …`
  have hskips : Skips UriAt (" 1".toList ++ ":2@ ".toList) text := skips_append_iff.mpr
    ⟨skips_uriAt (by decide), skips_uriAt_cons (by decide) (by decide) (by decide)⟩
  obtain ⟨rest, hfirst⟩ := exists_redactText "key".toList ['0'] " 1:2@ ".toList text
    ⟨"key".toList, [], ':', [], "[REDACTED]@".toList⟩ " 1:2@ ".toList
    ⟨by decide, by decide, by decide, by decide⟩ hskips rfl
    (isEntry_key rfl (by decide) (forall_of_all rfl)) ⟨' ', _, rfl, rfl⟩
    (fun _ => skips_entryAt (forall_of_all rfl)) rfl
  -- twice: `://key=[REDACTED] 1:[REDACTED]@ …`
  have hskips' : ∀ rest,
      Skips EntryAt (" 1:[".toList ++ ("REDACTED".toList ++ "]@ ".toList)) rest :=
    fun _ => skips_append_iff.mpr ⟨skips_entryAt (forall_of_all rfl), skips_append_iff.mpr
      ⟨skips_entryAt_run (forall_of_all rfl) (forall_head_cons (by decide)),
        skips_entryAt (forall_of_all rfl)⟩⟩
  obtain ⟨rest', hsecond⟩ := exists_redactText "key=[REDACTED] 1".toList ['2'] [' '] rest
    ⟨"key".toList, [], '=', [], "[REDACTED]".toList⟩ " 1:[REDACTED]@ ".toList
    ⟨by decide, by decide, by decide, by decide⟩ (skips_uriAt (by decide)) rfl
    (isEntry_key rfl (by decide) (forall_of_all rfl)) ⟨' ', _, rfl, rfl⟩ hskips' rfl
  refine ⟨uriText "key".toList ['0'] ++ " 1:2@ ".toList, fun hsettled => ?_⟩
  have hagain : "://".toList ++ ("key".toList ++ '=' :: redacted) ++ " 1:2@ ".toList ++ rest =
      uriText "key=[REDACTED] 1".toList ['2'] ++ ([' '] ++ rest) := rfl
  rw [List.append_assoc, hfirst, hagain, hsecond] at hsettled
  -- the password that was left, and what it is replaced by
  have hchar := congrArg (·[20]?) hsettled
  have hne : '[' ≠ '2' := by decide
  exact hne (Option.some.inj hchar)

/-! ## What the redaction hides -/

namespace Carrier

/-- **What the redaction hides**: a secret never stays exactly if its place is safe; and the lines
with it are not all settled, wherever it stands. -/
theorem hides_iff (c : Carrier) (secret : List Char) (h : c.IsSecret secret) :
    ((∀ before after, ¬ c.Leaks before secret after) ↔ c.Safe secret) ∧
      ¬ ∀ before after, redactText (redactText (c.line before secret after)) =
        redactText (c.line before secret after) := by
  refine ⟨⟨fun hhidden => ?_, fun hsafe before after => hidden_of_safe h hsafe⟩, fun hsettled => ?_⟩
  · by_contra hsafe
    obtain ⟨before, after, hleaks⟩ := exists_leaks h hsafe
    exact hhidden before after hleaks
  · obtain ⟨before, hunsettled⟩ := redactText_unsettled (c.lead ++ (secret ++ c.tail))
    refine hunsettled ?_
    have hline := hsettled before []
    simpa [line] using hline

/-- `Authorization: Bearer …`. -/
def bearerHeader : BearerHeader :=
  ⟨"Authorization".toList, [' '], "Bearer".toList, [' '], rfl, forall_of_all rfl, rfl,
    by decide, forall_of_all rfl⟩

/-- A secret of letters and digits. -/
theorem isSecret_abc : (header bearerHeader).IsSecret "abc123".toList :=
  ⟨by decide, forall_of_all rfl, fun _ h => nomatch h⟩

theorem hides_bearerHeader :
    ((∀ before after, ¬ (header bearerHeader).Leaks before "abc123".toList after) ↔
        (header bearerHeader).Safe "abc123".toList) ∧
      ¬ ∀ before after,
        redactText (redactText ((header bearerHeader).line before "abc123".toList after)) =
          redactText ((header bearerHeader).line before "abc123".toList after) :=
  hides_iff (header bearerHeader) "abc123".toList isSecret_abc

/-- A secret without separators is no safe one in a header. -/
theorem not_safe_header {h : BearerHeader} {secret : List Char} (hcolon : ':' ∉ secret)
    (hequals : '=' ∉ secret) : ¬ (header h).Safe secret := by
  rintro (⟨x, user, password, y, -, rfl⟩ | ⟨x, name, sep, y, -, hsep, rfl, -⟩)
  · exact hcolon (by simp [uriText])
  · rw [isSeparator, Bool.or_eq_true, beq_iff_eq, beq_iff_eq] at hsep
    rcases hsep with rfl | rfl
    · exact hcolon (by simp)
    · exact hequals (by simp)

theorem leaks_bearerHeader :
    (header bearerHeader).Leaks [] "abc123".toList [] ∧
      redactText "Authorization: Bearer abc123".toList =
        "Authorization=[REDACTED] abc123".toList :=
  ⟨leaks_header isSecret_abc (not_safe_header (by decide) (by decide)), by decide +kernel⟩

end Carrier

end Redaction

end FinanceIntelligence
