import FinanceIntelligence.ExtractionRuns

/-!
# Labels as patterns

A label of a document is the pattern of an `ILIKE`, and so is the code of an institution. Per cent
signs, underscores and backslashes in them are wildcards and escapes.

* `ilike_of_plain` — **a text without them matches itself only**, up to letter case.
* `matchesLiterally_iff`, `findsLiterally_iff` — when a lookup takes its text literally.
* `lookups_literal_iff` — **the labels and codes that are matched literally**.
-/

namespace FinanceIntelligence

/-- A text without wildcards and escapes. -/
def PlainPattern (p : List Char) : Prop := '%' ∉ p ∧ '_' ∉ p ∧ '\\' ∉ p

instance (p : List Char) : Decidable (PlainPattern p) := inferInstanceAs (Decidable (_ ∧ _ ∧ _))

section Like

variable {p t : List Char}

/-- **A plain pattern** matches itself, and is never refused. -/
theorem likeMatch_of_plain {n : ℕ} (hp : PlainPattern p) (hn : p.length ≤ n) :
    (likeMatch n p t = .yes ↔ t = p) ∧ likeMatch n p t ≠ .badPattern := by
  induction p generalizing n t with
  | nil => cases n <;> cases t <;> simp [likeMatch]
  | cons c p ih =>
    have hc : c ≠ '%' ∧ c ≠ '_' ∧ c ≠ '\\' :=
      ⟨fun h => hp.1 (h ▸ List.mem_cons_self ..), fun h => hp.2.1 (h ▸ List.mem_cons_self ..),
        fun h => hp.2.2 (h ▸ List.mem_cons_self ..)⟩
    have hrest : PlainPattern p := ⟨fun h => hp.1 (List.mem_cons_of_mem _ h),
      fun h => hp.2.1 (List.mem_cons_of_mem _ h), fun h => hp.2.2 (List.mem_cons_of_mem _ h)⟩
    cases n with
    | zero => cases hn
    | succ n =>
      cases t with
      | nil => simp [likeMatch, hc.1]
      | cons d t =>
        have hstep : likeMatch (n + 1) (c :: p) (d :: t) =
            if c = d then likeMatch n p t else .no := by
          rw [likeMatch] <;> simp [hc.1, hc.2.1, hc.2.2]
        obtain ⟨hyes, hgood⟩ := ih (t := t) hrest (Nat.le_of_succ_le_succ hn)
        rw [hstep]
        split
        · rename_i heq
          subst heq
          exact ⟨by rw [hyes, List.cons_inj_right], hgood⟩
        · rename_i hne
          refine ⟨iff_of_false nofun fun h => hne (List.cons.inj h).1.symm, nofun⟩

/-- **A plain text matches itself only**, up to letter case. -/
theorem Dictionary.ilike_of_plain {d : Dictionary} (hp : PlainPattern (d.lower p)) :
    (d.ilike t p = .yes ↔ d.lower t = d.lower p) ∧ d.ilike t p ≠ .badPattern :=
  likeMatch_of_plain hp le_rfl

end Like

section Select

variable {α : Type} {f : α → LikeResult} {rows : List α} {o : Option α}

/-- The row that is found matches. -/
theorem mem_of_selectOne {row : α} (h : selectOne f rows = .ok (some row)) :
    row ∈ rows ∧ f row = .yes := by
  rw [selectOne] at h
  split at h
  · cases h
  · split at h
    · cases h
    · rename_i r hone
      cases h
      have hmem : row ∈ rows.filter fun row => f row == .yes := hone ▸ List.mem_singleton_self row
      exact ⟨List.mem_of_mem_filter hmem, by simpa using List.of_mem_filter hmem⟩
    · cases h

/-- The row that matches is found. -/
theorem selectOne_of_mem {row : α} (h : selectOne f rows = .ok o) (hrow : row ∈ rows)
    (hf : f row = .yes) : o = some row := by
  have hmem : row ∈ rows.filter fun row => f row == .yes :=
    List.mem_filter.mpr ⟨hrow, by simp [hf]⟩
  rw [selectOne] at h
  split at h
  · cases h
  · split at h
    · rename_i hnil
      rw [hnil] at hmem
      cases hmem
    · rename_i r hone
      cases h
      rw [hone, List.mem_singleton] at hmem
      rw [hmem]
    · cases h

/-- Rows with different keys: at most one of them has a given one. -/
theorem atMostOne_of_pairwise {key : α → Prop} (hbad : ∀ row ∈ rows, f row ≠ .badPattern)
    (hkey : ∀ row ∈ rows, f row = .yes → key row)
    (hpair : rows.Pairwise fun r r' => ¬ (key r ∧ key r')) : AtMostOne f rows := by
  refine ⟨hbad, ?_⟩
  have hfilter := hpair.filter fun row => f row == .yes
  have hall : ∀ row ∈ rows.filter (fun row => f row == .yes), key row := fun row hrow =>
    hkey row (List.mem_of_mem_filter hrow) (by simpa using List.of_mem_filter hrow)
  generalize rows.filter (fun row => f row == .yes) = found at hfilter hall
  match found, hfilter, hall with
  | [], _, _ => exact Nat.zero_le 1
  | [_], _, _ => exact le_rfl
  | r :: r' :: _, hfilter, hall =>
    exact absurd ⟨hall r (by simp), hall r' (by simp)⟩
      ((List.pairwise_cons.mp hfilter).1 r' (by simp))

end Select

/-- A row of `institutions`. -/
structure InstitutionRow where
  id : Uuid
  organizationId : Uuid
  canonicalName : List Char
deriving DecidableEq

/-- `find_institution`. -/
def Dictionary.findInstitution (d : Dictionary) (institutions : List InstitutionRow)
    (organizationId : Uuid) (institutionCode : List Char) :
    Except LookupError (Option InstitutionRow) :=
  if Char.ofNat 0 ∈ institutionCode then .error .nulCharacter
  else
    selectOne (fun row => d.ilike row.canonicalName institutionCode)
      (institutions.filter fun row => row.organizationId == organizationId)

/-- The code and the name of a metric. -/
def MetricRow.texts (m : MetricRow) : List (List Char) := [m.metricCode.toList, m.canonicalName]

/-- The aliases, metrics and institutions of a tenant are unique up to letter case. -/
structure Dictionary.UniqueTexts (d : Dictionary) (institutions : List InstitutionRow)
    (organizationId : Uuid) : Prop where
  /-- no two aliases have one pattern -/
  aliases : (d.aliases.filter fun row => row.organizationId == organizationId).Pairwise
    fun a b => d.lower a.aliasPattern ≠ d.lower b.aliasPattern
  /-- no two metrics have one code or name -/
  metrics : d.metrics.Pairwise fun m m' =>
    ∀ t ∈ m.texts, ∀ t' ∈ m'.texts, d.lower t ≠ d.lower t'
  /-- no two institutions have one name -/
  institutions : (institutions.filter fun row => row.organizationId == organizationId).Pairwise
    fun a b => d.lower a.canonicalName ≠ d.lower b.canonicalName

/-- A text is the code or the name of a metric, or an alias that the tenant has for it, up to letter
case. -/
def Dictionary.Bears (d : Dictionary) (organizationId : Uuid) (m : MetricRow) (t : List Char) :
    Prop :=
  (∃ name ∈ m.texts, d.lower name = d.lower t) ∨
    ∃ row ∈ d.aliases, row.organizationId = organizationId ∧ row.metricDefinitionId = m.id ∧
      d.lower row.aliasPattern = d.lower t

instance (d : Dictionary) (organizationId : Uuid) (m : MetricRow) (t : List Char) :
    Decidable (d.Bears organizationId m t) := inferInstanceAs (Decidable (_ ∨ _))

section Lookups

variable {U : CharClass} {T : TextCase} {d : Dictionary} {institutions : List InstitutionRow}
  {organizationId : Uuid} {rawLabel institutionCode : List Char}

/-- **A label is taken literally**: nothing is raised, and a metric that is found bears the trimmed
label. -/
def TakesLabelLiterally (U : CharClass) (T : TextCase) (d : Dictionary) (organizationId : Uuid)
    (rawLabel : List Char) : Prop :=
  ∃ o, d.matchMetricAlias U T organizationId rawLabel = .ok o ∧
    ∀ m ∈ o, d.Bears organizationId m (T.lower (strip U rawLabel))

/-- **A code is taken literally**: nothing is raised, and the name of an institution that is found
is the trimmed code. -/
def TakesCodeLiterally (U : CharClass) (d : Dictionary) (institutions : List InstitutionRow)
    (organizationId : Uuid) (institutionCode : List Char) : Prop :=
  ∃ o, d.findInstitution institutions organizationId institutionCode = .ok o ∧
    ∀ row ∈ o, d.lower row.canonicalName = d.lower (strip U institutionCode)

/-- **What a label matches as a pattern bears it**: at most one alias of the tenant, or none and at
most one metric, no row refuses the pattern, and the metric bears the label. -/
def PatternBorne (U : CharClass) (T : TextCase) (d : Dictionary) (organizationId : Uuid)
    (rawLabel : List Char) : Prop :=
  let pattern := T.lower (strip U rawLabel)
  let own := d.aliases.filter fun row => row.organizationId == organizationId
  OneMeaning U T d organizationId rawLabel ∧
    (∀ row ∈ own, d.ilike row.aliasPattern pattern = .yes →
      ∀ m ∈ d.metrics.find? fun m => m.id == row.metricDefinitionId,
        d.Bears organizationId m pattern) ∧
    ((∀ row ∈ own, d.ilike row.aliasPattern pattern ≠ .yes) →
      ∀ m ∈ d.metrics, d.metricMatches pattern m = .yes → d.Bears organizationId m pattern)

/-- **The institution that a code matches as a pattern** is the only one, its name is the trimmed
code, and no row refuses the pattern. -/
def CodeBorne (U : CharClass) (d : Dictionary) (institutions : List InstitutionRow)
    (organizationId : Uuid) (institutionCode : List Char) : Prop :=
  let own := institutions.filter fun row => row.organizationId == organizationId
  AtMostOne (fun row => d.ilike row.canonicalName institutionCode) own ∧
    ∀ row ∈ own, d.ilike row.canonicalName institutionCode = .yes →
      d.lower row.canonicalName = d.lower (strip U institutionCode)

theorem takesLabelLiterally_iff : TakesLabelLiterally U T d organizationId rawLabel ↔
    PatternBorne U T d organizationId rawLabel := by
  rw [TakesLabelLiterally, PatternBorne, ← matchMetricAlias_isOk_iff]
  constructor
  · rintro ⟨o, hok, hbears⟩
    refine ⟨⟨o, hok⟩, ?_⟩
    simp only [Dictionary.matchMetricAlias] at hok
    split at hok
    · cases hok
    · obtain ⟨found, hfound, ho⟩ := exceptBind_eq_ok.mp hok
      refine ⟨fun row hrow hmatch m hm => ?_, fun hnone m hm hmatch => ?_⟩
      · obtain rfl := selectOne_of_mem hfound hrow hmatch
        obtain rfl := Except.ok.inj ho
        exact hbears m hm
      · obtain rfl := (selectOne_eq_none hfound).mpr hnone
        obtain rfl := selectOne_of_mem ho hm hmatch
        exact hbears m rfl
  · rintro ⟨⟨o, hok⟩, halias, hmetric⟩
    refine ⟨o, hok, fun m hm => ?_⟩
    simp only [Dictionary.matchMetricAlias] at hok
    split at hok
    · cases hok
    · obtain ⟨found, hfound, ho⟩ := exceptBind_eq_ok.mp hok
      cases found with
      | some row =>
        obtain ⟨hrow, hmatch⟩ := mem_of_selectOne hfound
        obtain rfl := Except.ok.inj ho
        exact halias row hrow hmatch m hm
      | none =>
        obtain rfl := Option.mem_def.mp hm
        obtain ⟨hrow, hmatch⟩ := mem_of_selectOne ho
        exact hmetric ((selectOne_eq_none hfound).mp rfl) m hrow hmatch

theorem takesCodeLiterally_iff :
    TakesCodeLiterally U d institutions organizationId institutionCode ↔
      Char.ofNat 0 ∉ institutionCode ∧
        CodeBorne U d institutions organizationId institutionCode := by
  rw [TakesCodeLiterally, Dictionary.findInstitution, CodeBorne]
  by_cases hnul : Char.ofNat 0 ∈ institutionCode
  · rw [if_pos hnul]
    exact iff_of_false (fun ⟨_, h, _⟩ => nomatch h) fun h => h.1 hnul
  · rw [if_neg hnul, and_iff_right hnul, ← selectOne_isOk_iff]
    constructor
    · rintro ⟨o, hok, hname⟩
      refine ⟨⟨o, hok⟩, fun row hrow hmatch => ?_⟩
      obtain rfl := selectOne_of_mem hok hrow hmatch
      exact hname row rfl
    · rintro ⟨⟨o, hok⟩, hname⟩
      refine ⟨o, hok, fun row hrow => ?_⟩
      obtain rfl := Option.mem_def.mp hrow
      obtain ⟨hmem, hmatch⟩ := mem_of_selectOne hok
      exact hname row hmem hmatch

/-- A plain label matches what bears it. -/
theorem patternBorne_of_plain (hunique : d.UniqueTexts institutions organizationId)
    (hnul : Char.ofNat 0 ∉ T.lower (strip U rawLabel))
    (hplain : PlainPattern (d.lower (T.lower (strip U rawLabel)))) :
    PatternBorne U T d organizationId rawLabel := by
  have hlike (t : List Char) := d.ilike_of_plain (t := t) hplain
  have hmetric {m : MetricRow} (h : d.metricMatches (T.lower (strip U rawLabel)) m = .yes) :
      ∃ name ∈ m.texts, d.lower name = d.lower (T.lower (strip U rawLabel)) := by
    rw [Dictionary.metricMatches] at h
    split at h
    · rename_i hcode
      exact ⟨_, List.mem_cons_self .., (hlike _).1.mp hcode⟩
    · cases h
    · exact ⟨m.canonicalName, by simp [MetricRow.texts], (hlike _).1.mp h⟩
  have hgood (m : MetricRow) : d.metricMatches (T.lower (strip U rawLabel)) m ≠ .badPattern := by
    rw [Dictionary.metricMatches]
    split
    · nofun
    · rename_i hbad
      exact absurd hbad (hlike _).2
    · exact (hlike _).2
  refine ⟨⟨hnul, ?_, fun _ => ?_⟩, fun row hrow hmatch m hm => ?_, fun _ m _ hmatch => ?_⟩
  · refine atMostOne_of_pairwise (fun row _ => (hlike _).2) (fun row _ => (hlike _).1.mp) ?_
    exact hunique.aliases.imp fun hne h => hne (h.1.trans h.2.symm)
  · refine atMostOne_of_pairwise (fun m _ => hgood m) (fun m _ => hmetric) ?_
    refine hunique.metrics.imp fun hne h => ?_
    obtain ⟨⟨t, ht, heq⟩, t', ht', heq'⟩ := h
    exact hne t ht t' ht' (heq.trans heq'.symm)
  · obtain ⟨hmem, horg⟩ := List.mem_filter.mp hrow
    have hid := List.find?_some (Option.mem_def.mp hm)
    exact .inr ⟨row, hmem, by simpa using horg, (beq_iff_eq.mp hid).symm, (hlike _).1.mp hmatch⟩
  · exact .inl (hmetric hmatch)

/-- A plain code matches the institution with that name. -/
theorem codeBorne_of_plain (hunique : d.UniqueTexts institutions organizationId)
    (hplain : PlainPattern (d.lower institutionCode))
    (htrimmed : strip U institutionCode = institutionCode) :
    CodeBorne U d institutions organizationId institutionCode := by
  have hlike (t : List Char) := d.ilike_of_plain (t := t) hplain
  refine ⟨?_, fun row _ hmatch => ?_⟩
  · refine atMostOne_of_pairwise (fun row _ => (hlike _).2) (fun row _ => (hlike _).1.mp) ?_
    exact hunique.institutions.imp fun hne h => hne (h.1.trans h.2.symm)
  · rw [htrimmed]
    exact (hlike _).1.mp hmatch

/-- **The labels and codes that are matched literally**: those without wildcards and escapes, and
those that match, as patterns, only what bears them. -/
theorem lookups_literal_iff (U : CharClass) (T : TextCase) (rawLabel institutionCode : List Char)
    (hunique : d.UniqueTexts institutions organizationId) :
    (TakesLabelLiterally U T d organizationId rawLabel ↔
      Char.ofNat 0 ∉ T.lower (strip U rawLabel) ∧
        (PlainPattern (d.lower (T.lower (strip U rawLabel))) ∨
          PatternBorne U T d organizationId rawLabel)) ∧
    (TakesCodeLiterally U d institutions organizationId institutionCode ↔
      Char.ofNat 0 ∉ institutionCode ∧
        ((PlainPattern (d.lower institutionCode) ∧ strip U institutionCode = institutionCode) ∨
          CodeBorne U d institutions organizationId institutionCode)) := by
  rw [takesLabelLiterally_iff, takesCodeLiterally_iff]
  constructor
  · constructor
    · exact fun h => ⟨h.1.1, .inr h⟩
    · rintro ⟨hnul, hplain | h⟩
      · exact patternBorne_of_plain hunique hnul hplain
      · exact h
  · constructor
    · exact fun h => ⟨h.1, .inr h.2⟩
    · rintro ⟨hnul, ⟨hplain, htrimmed⟩ | h⟩
      · exact ⟨hnul, codeBorne_of_plain hunique hplain htrimmed⟩
      · exact ⟨hnul, h⟩

/-! ## A column of underscores -/

/-- Two metrics, with an alias for the first one. -/
def loansDictionary : Dictionary where
  metrics := [⟨⟨10, "TOTAL_LOANS"⟩, "Total loans".toList, true⟩,
    ⟨⟨11, "TOTAL_ASSETS"⟩, "Total assets".toList, true⟩]
  aliases := [⟨1, 10, "krediler".toList⟩]
  lower := List.map Char.toLower

/-- Two institutions. -/
def twoInstitutions : List InstitutionRow :=
  [⟨20, 1, "AKBANK".toList⟩, ⟨21, 1, "GARANTI".toList⟩]

theorem loansDictionary_uniqueTexts : loansDictionary.UniqueTexts twoInstitutions 1 where
  aliases := by decide
  metrics := by decide
  institutions := by decide

/-- The alias of the loans, and the code of a bank. -/
theorem lookups_literal_krediler :
    TakesLabelLiterally .ascii .ascii loansDictionary 1 " Krediler ".toList ∧
      TakesCodeLiterally .ascii loansDictionary twoInstitutions 1 "Akbank".toList := by
  have hiff := lookups_literal_iff .ascii .ascii " Krediler ".toList "Akbank".toList
    loansDictionary_uniqueTexts
  exact ⟨hiff.1.mpr ⟨by decide, .inl (by decide)⟩,
    hiff.2.mpr ⟨by decide, .inl ⟨by decide, by decide⟩⟩⟩

/-- A label of underscores finds the loans, and a per cent sign more than one institution. -/
theorem not_takesLiterally : loansDictionary.UniqueTexts twoInstitutions 1 ∧
    ¬ TakesLabelLiterally .ascii .ascii loansDictionary 1 "________".toList ∧
      ¬ TakesCodeLiterally .ascii loansDictionary twoInstitutions 1 "%".toList := by
  refine ⟨loansDictionary_uniqueTexts, fun ⟨o, hok, hbears⟩ => ?_, fun ⟨o, hok, _⟩ => ?_⟩
  · have hloans : loansDictionary.matchMetricAlias .ascii .ascii 1 "________".toList =
        .ok loansDictionary.metrics.head? := by rfl
    obtain rfl := Except.ok.inj (hloans.symm.trans hok)
    have hother : ¬ loansDictionary.Bears 1 ⟨⟨10, "TOTAL_LOANS"⟩, "Total loans".toList, true⟩
        (TextCase.ascii.lower (strip .ascii "________".toList)) := by decide
    exact hother (hbears _ rfl)
  · have hraises : loansDictionary.findInstitution twoInstitutions 1 "%".toList =
        .error .multipleRows := by rfl
    rw [hraises] at hok
    cases hok

end Lookups

end FinanceIntelligence
