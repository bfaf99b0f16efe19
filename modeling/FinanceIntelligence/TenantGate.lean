import FinanceIntelligence.PyText
import FinanceIntelligence.NumericGate
import Mathlib.Data.List.Perm.Subperm
import Mathlib.Data.List.Permutation
import Mathlib.Data.List.NodupEquivFin

/-!
# Tenant isolation of the numeric gate

`verify_narrative_numeric_claims` derives numbers from the facts of the dataset's
own organization, but it also looks for a number in the text of the whole dataset,
and that has the facts of everyone. Two datasets that differ in foreign facts only
get the same verdict for every difference **exactly when** the own part of the
dataset supports each claimed number by itself.

* `verify_isolated_iff` — isolation **exactly then**.
-/

namespace FinanceIntelligence

open NumericClaimVerifier

section Datasets

variable (U : TextClass)

/-- `float(text)`'s underscores, which stand between two digits. -/
def dropUnderscores : List Char → Option (List Char)
  | [] => some []
  | a :: '_' :: b :: l =>
    if (U.digit a).isSome && (U.digit b).isSome then
      (dropUnderscores (b :: l)).map (a :: ·)
    else none
  | c :: l => if c = '_' then none else (dropUnderscores l).map (c :: ·)

/-- The exact value of digits with at most one point. -/
def decimalValue (l : List Char) : Option ℚ :=
  match l.splitOn '.' with
  | [whole] => if whole.isEmpty then none else (digitsValue U.toCharClass whole).map fun n => (n : ℚ)
  | [whole, places] =>
    if whole.isEmpty && places.isEmpty then none else
      (digitsValue U.toCharClass (whole ++ places)).map fun n => (n / 10 ^ places.length : ℚ)
  | _ => none

/-- A sign in front of a number. -/
def signed (l : List Char) : ℚ × List Char :=
  match l with
  | '-' :: l => (-1, l)
  | '+' :: l => (1, l)
  | l => (1, l)

/-- `float(text)`. The texts of infinities and of what is no number are left out,
as the gate's arithmetic leaves them out. -/
def pyFloat (text : List Char) : Option ℚ :=
  let stripped := ((text.dropWhile U.space).reverse.dropWhile U.space).reverse
  (dropUnderscores U stripped).bind fun clean =>
    let (sign, l) := signed clean
    match l.span fun c => c != 'e' && c != 'E' with
    | (mantissa, []) => (decimalValue U mantissa).map fun m => Binary64.round (sign * m)
    | (mantissa, _ :: exponent) =>
      let (direction, digits) := signed exponent
      if digits.isEmpty then none else
        (decimalValue U mantissa).bind fun m => (digitsValue U.toCharClass digits).map fun n =>
          Binary64.round (sign * if 0 < direction then m * 10 ^ n else m / 10 ^ n)

/-- `organization_id`, when it counts as true. -/
def PyDict.organization (d : PyDict) : Option String :=
  ((d.get "organization_id").filter PyValue.truthy).map fun v => String.ofList (v.toStr U)

/-- The text of a field that is compared with `==`, or of its default. -/
def PyDict.compared (d : PyDict) (key default : String) : String :=
  String.ofList (((d.get key).getD (.str default.toList)).repr U)

/-- A fact as the gate reads it. -/
def gateFact (f : PyDict) : GateFact where
  organizationId := f.organization U
  value := pyFloat U (((f.get "value").map (PyValue.toStr U)).getD ['0'])
  currency := f.compared U "currency" "TRY"
  unit := f.compared U "unit" "CURRENCY"
  reportingBasis := f.compared U "reporting_basis" "SOLO"
  metric := match f.get "metric" with
    | none | some .none => none
    | some v => some (String.ofList (v.repr U))

end Datasets

/-- `authoritative_dataset_json`: a dictionary that may have a list of facts under
`facts`, after some of its other fields and before the rest. -/
structure AuthoritativeDataset where
  /-- the fields before the facts -/
  before : PyDict
  facts : Option (List PyDict)
  /-- the fields after the facts -/
  after : PyDict
  /-- a key occurs once -/
  keys_nodup : ((before ++ after).map (·.1)).Nodup
  /-- none of the other fields is `facts` -/
  keys_ne : ∀ field ∈ before ++ after, field.1 ≠ "facts".toList

namespace AuthoritativeDataset

variable (U : TextClass) (d : AuthoritativeDataset)

/-- The fields other than the facts. -/
def others : PyDict := d.before ++ d.after

/-- The facts. -/
def factList : List PyDict := d.facts.getD []

/-- The dictionary. -/
def toDict : PyDict :=
  d.before ++ (d.facts.map fun l => ("facts".toList, PyValue.list (l.map .dict))).toList ++ d.after

/-- The dataset as the gate reads it. -/
def toGate : GateDataset where
  organizationId := d.others.organization U
  facts := d.factList.map (gateFact U)
  structured := d.facts.isSome || d.others.any fun (k, _) =>
    k == "rows".toList || k == "result_dataset_id".toList
  text := String.ofList ((PyValue.dict d.toDict).repr U)

/-- `str(organization_id)`. -/
def organizationText : String :=
  String.ofList (((d.others.get "organization_id").getD .none).toStr U)

/-- The fact is of the dataset's organization, or of none. -/
def owns (f : PyDict) : Bool := sameTenant (some (d.organizationText U)) (gateFact U f)

/-- The facts of the dataset's organization. -/
def ownFacts : List PyDict := d.factList.filter (d.owns U)

/-- The dataset with other facts. -/
def withFacts (facts : Option (List PyDict)) : AuthoritativeDataset := { d with facts }

/-- The two agree on everything but the facts of other organizations. -/
structure Agrees (d d' : AuthoritativeDataset) : Prop where
  /-- on every field other than `facts` -/
  others : ∀ field, field ∈ d.others ↔ field ∈ d'.others
  /-- on the own facts -/
  own : (d.ownFacts U).Perm (d'.ownFacts U)

/-- The verdict: the first unsupported number, if there is one. -/
def verify (narrative : String) : Option (List Char) :=
  verifyNarrativeNumericClaims U.toCharClass narrative.toList (d.toGate U)

/-- The number occurs in the text of a list. -/
def occursInText (token text : List Char) : Prop :=
  (token.filter fun c => c != ',' && c != '%') <:+: text ∨ token <:+: text

/-- The own part of the dataset supports a number: it occurs in a field other than
`facts` or in an own fact, or is derived from the own facts. -/
def SupportsAlone (token : List Char) : Prop :=
  (∃ field ∈ d.others, occursInText token (fieldRepr U field)) ∨
    (∃ f ∈ d.ownFacts U, occursInText token ((PyValue.dict f).repr U)) ∨
    isDerived U.toCharClass (computeDeterministicDerivations
      ((d.withFacts (some (d.ownFacts U))).toGate U)) token = true

end AuthoritativeDataset

/-! ## Numbers of a text -/

section Numbers

variable {U : TextClass} {m : List Char}

/-- A character of a number. -/
def NumeralChar (U : TextClass) (c : Char) : Prop :=
  (U.digit c).isSome = true ∨ c = '.' ∨ c = ',' ∨ c = '%'

/-- Characters of numbers, no comma at the end. -/
structure Numeral (U : TextClass) (m : List Char) : Prop where
  /-- its characters -/
  chars : ∀ c ∈ m, NumeralChar U c
  /-- its end -/
  last : ∀ c ∈ m.getLast?, c ≠ ','

theorem not_digit_of_lt {c : Char} (hc : c.toNat < 128 ∧ ¬ ('0' ≤ c ∧ c ≤ '9')) :
    ¬ (U.digit c).isSome = true :=
  fun h => hc.2 (U.digit_ascii c h hc.1)

theorem Numeral.nil : Numeral U [] where
  chars := fun c h => absurd h List.not_mem_nil
  last := by rintro c ⟨⟩

theorem Numeral.append {m₁ m₂ : List Char} (h₁ : Numeral U m₁) (h₂ : Numeral U m₂) :
    Numeral U (m₁ ++ m₂) := by
  refine ⟨fun c hc => ?_, fun c hc => ?_⟩
  · rcases List.mem_append.mp hc with hc | hc
    · exact h₁.chars c hc
    · exact h₂.chars c hc
  · rcases List.eq_nil_or_concat m₂ with rfl | ⟨m₂, d, rfl⟩
    · exact h₁.last c (by simpa using hc)
    · exact h₂.last c (by simpa [← List.append_assoc] using hc)

theorem numeral_digits (h : ∀ c ∈ m, (U.digit c).isSome = true) : Numeral U m := by
  refine ⟨fun c hc => .inl (h c hc), ?_⟩
  rintro _ hc rfl
  exact not_digit_of_lt (by decide) (h _ (List.mem_of_getLast? hc))

theorem numeral_flatten {ms : List (List Char)} (h : ∀ x ∈ ms, Numeral U x) :
    Numeral U ms.flatten := by
  induction ms with
  | nil => exact .nil
  | cons x ms ih =>
    exact (h x List.mem_cons_self).append (ih fun y hy => h y (List.mem_cons_of_mem x hy))

/-- A run of digits. -/
theorem digits_of_lang (h : Regex.Lang (.plus (digit U.toCharClass)) m) :
    m ≠ [] ∧ ∀ c ∈ m, (U.digit c).isSome = true := by
  obtain ⟨_, _, rfl, ⟨c, rfl, hc⟩, ms, rfl, hms⟩ := h
  refine ⟨by simp, fun d hd => ?_⟩
  rcases List.mem_append.mp hd with hd | hd
  · obtain rfl := List.mem_singleton.mp hd
    exact hc
  · obtain ⟨x, hx, hd⟩ := List.mem_flatten.mp hd
    obtain ⟨e, rfl, he⟩ := hms x hx
    obtain rfl := List.mem_singleton.mp hd
    exact he

/-- A separator and a run of digits. -/
theorem numeral_group
    (h : Regex.Lang (.seq (.one fun c => c == '.' || c == ',') (.plus (digit U.toCharClass))) m) :
    Numeral U m := by
  obtain ⟨_, m₂, rfl, ⟨c, rfl, hc⟩, hdigits⟩ := h
  obtain ⟨hne, hall⟩ := digits_of_lang hdigits
  have htail := numeral_digits hall
  refine ⟨fun d hd => ?_, fun d hd => ?_⟩
  · rcases List.mem_append.mp hd with hd | hd
    · obtain rfl := List.mem_singleton.mp hd
      rcases Bool.or_eq_true_iff.mp hc with hc | hc
      · exact .inr (.inl (beq_iff_eq.mp hc))
      · exact .inr (.inr (.inl (beq_iff_eq.mp hc)))
    · exact htail.chars d hd
  · rw [List.getLast?_append_of_ne_nil _ hne] at hd
    exact htail.last d hd

/-- **A number of a text** begins with a digit and does not end in a comma. -/
theorem numeral_of_lang (h : Regex.Lang (numberPattern U.toCharClass) m) :
    Numeral U m ∧ ∃ c ∈ m, (U.digit c).isSome = true := by
  obtain ⟨_, _, rfl, rfl, m₁, _, rfl, hdigits, m₂, _, rfl, ⟨ms, rfl, hms⟩, m₃, _, rfl, hopt, m₄, _,
    rfl, hpercent, rfl⟩ := h
  obtain ⟨hne, hall⟩ := digits_of_lang hdigits
  have h₂ : Numeral U ms.flatten := numeral_flatten fun x hx => numeral_group (hms x hx)
  have h₃ : Numeral U m₃ := by
    rcases hopt with hopt | rfl
    · exact numeral_group hopt
    · exact .nil
  have h₄ : Numeral U m₄ := by
    rcases hpercent with ⟨c, rfl, hc⟩ | rfl
    · obtain rfl := beq_iff_eq.mp hc
      exact ⟨by simp [NumeralChar], by simp⟩
    · exact .nil
  refine ⟨.append .nil ((numeral_digits hall).append (h₂.append (h₃.append (h₄.append .nil)))), ?_⟩
  obtain ⟨c, hc⟩ := List.exists_mem_of_ne_nil m₁ hne
  exact ⟨c, by simp [hc], hall c hc⟩

/-- It has no delimiters. -/
theorem Numeral.undelimited (h : Numeral U m) (hne : m ≠ []) : Undelimited m := by
  have hnot : ∀ c : Char, c.toNat < 128 ∧ ¬ ('0' ≤ c ∧ c ≤ '9') → c ≠ '.' → c ≠ ',' → c ≠ '%' →
      c ∉ m := by
    intro c hc h₁ h₂ h₃ hmem
    rcases h.chars c hmem with hd | rfl | rfl | rfl
    · exact not_digit_of_lt hc hd
    · exact h₁ rfl
    · exact h₂ rfl
    · exact h₃ rfl
  exact ⟨hne, hnot ' ' (by decide) (by decide) (by decide) (by decide),
    ⟨hnot '[' (by decide) (by decide) (by decide) (by decide),
      hnot ']' (by decide) (by decide) (by decide) (by decide),
      hnot '{' (by decide) (by decide) (by decide) (by decide),
      hnot '}' (by decide) (by decide) (by decide) (by decide)⟩, h.last⟩

/-- Without its commas and its percent sign it is digits and points. -/
theorem Numeral.clean (h : Numeral U m) :
    Numeral U (m.filter fun c => c != ',' && c != '%') := by
  refine ⟨fun c hc => h.chars c (List.mem_of_mem_filter hc), ?_⟩
  rintro _ hc rfl
  simpa using (List.mem_filter.mp (List.mem_of_getLast? hc)).2

/-- Its characters stand for themselves in a `repr`. -/
theorem NumeralChar.plain {c : Char} (h : NumeralChar U c) :
    U.printable c = true ∧ c ≠ '\\' ∧ c ≠ '\'' := by
  rcases h with h | rfl | rfl | rfl
  · refine ⟨U.printable_of_digit c h, ?_, ?_⟩
    · rintro rfl
      exact not_digit_of_lt (by decide) h
    · rintro rfl
      exact not_digit_of_lt (by decide) h
  · exact ⟨by rw [U.printable_ascii _ (by decide)]; decide, by decide, by decide⟩
  · exact ⟨by rw [U.printable_ascii _ (by decide)]; decide, by decide, by decide⟩
  · exact ⟨by rw [U.printable_ascii _ (by decide)]; decide, by decide, by decide⟩

end Numbers

/-! ## Where a number occurs -/

namespace AuthoritativeDataset

variable {U : TextClass} {d d' : AuthoritativeDataset} {t : List Char}

/-- The key of the facts has no number. -/
theorem not_infix_factsKey (hdigit : ∃ c ∈ t, (U.digit c).isSome = true) :
    ¬ t <:+: reprStr U "facts".toList ++ [':'] := by
  have hp : ∀ c : Char, c.toNat < 128 ∧ (32 ≤ c.toNat && c.toNat < 127) = true →
      U.printable c = true := fun c hc => by rw [U.printable_ascii c hc.1, hc.2]
  have htext : reprStr U "facts".toList ++ [':'] = "'facts':".toList := by
    simp [reprStr, reprChar, hp]
  obtain ⟨c, hc, hd⟩ := hdigit
  rw [htext]
  intro h
  have hno : ∀ x ∈ "'facts':".toList, x.toNat < 128 ∧ ¬ ('0' ≤ x ∧ x ≤ '9') := by simp
  exact not_digit_of_lt (hno c (h.subset hc)) hd

/-- **A piece with a digit** occurs in the dictionary when it occurs in another
field or in a fact. -/
theorem infix_toDict (h : Undelimited t) (hdigit : ∃ c ∈ t, (U.digit c).isSome = true) :
    t <:+: (PyValue.dict d.toDict).repr U ↔
      (∃ field ∈ d.others, t <:+: fieldRepr U field) ∨
        ∃ f ∈ d.factList, t <:+: (PyValue.dict f).repr U := by
  have hfacts : ∀ l : List PyDict, t <:+: fieldRepr U ("facts".toList, .list (l.map .dict)) ↔
      ∃ f ∈ l, t <:+: (PyValue.dict f).repr U := by
    intro l
    rw [h.infix_field, or_iff_right (not_infix_factsKey hdigit), h.infix_list]
    simp
  rw [h.infix_dict]
  simp only [toDict, others, factList]
  cases d.facts with
  | none => simp
  | some l =>
    simp only [Option.map_some, Option.toList_some, List.mem_append, List.mem_singleton,
      Option.getD_some, ← hfacts l]
    constructor
    · rintro ⟨f, (hf | rfl) | hf, ht⟩
      · exact .inl ⟨f, .inl hf, ht⟩
      · exact .inr ht
      · exact .inl ⟨f, .inr hf, ht⟩
    · rintro (⟨f, hf | hf, ht⟩ | ht)
      · exact ⟨f, .inl (.inl hf), ht⟩
      · exact ⟨f, .inr hf, ht⟩
      · exact ⟨_, .inl (.inr rfl), ht⟩

/-- The number occurs in the text of the dataset. -/
theorem occursIn_toGate (h : Numeral U t) (hdigit : ∃ c ∈ t, (U.digit c).isSome = true) :
    occursIn (d.toGate U).text t = true ↔
      (∃ field ∈ d.others, occursInText t (fieldRepr U field)) ∨
        ∃ f ∈ d.factList, occursInText t ((PyValue.dict f).repr U) := by
  obtain ⟨c, hc, hd⟩ := hdigit
  have hclean : c ∈ t.filter fun c => c != ',' && c != '%' := by
    refine List.mem_filter.mpr ⟨hc, ?_⟩
    have h₁ : c ≠ ',' := by
      rintro rfl
      exact not_digit_of_lt (by decide) hd
    have h₂ : c ≠ '%' := by
      rintro rfl
      exact not_digit_of_lt (by decide) hd
    simp [h₁, h₂]
  simp only [occursIn, toGate, String.toList_ofList, Bool.or_eq_true, isPartOf_iff, occursInText,
    infix_toDict (h.undelimited (List.ne_nil_of_mem hc)) ⟨c, hc, hd⟩,
    infix_toDict (h.clean.undelimited (List.ne_nil_of_mem hclean)) ⟨c, hclean, hd⟩]
  constructor
  · rintro ((⟨f, hf, ht⟩ | ⟨f, hf, ht⟩) | ⟨f, hf, ht⟩ | ⟨f, hf, ht⟩)
    · exact .inl ⟨f, hf, .inl ht⟩
    · exact .inr ⟨f, hf, .inl ht⟩
    · exact .inl ⟨f, hf, .inr ht⟩
    · exact .inr ⟨f, hf, .inr ht⟩
  · rintro (⟨f, hf, ht | ht⟩ | ⟨f, hf, ht | ht⟩)
    · exact .inl (.inl ⟨f, hf, ht⟩)
    · exact .inr (.inl ⟨f, hf, ht⟩)
    · exact .inl (.inr ⟨f, hf, ht⟩)
    · exact .inr (.inr ⟨f, hf, ht⟩)

end AuthoritativeDataset

/-! ## What facts derive -/

section Derive

/-- Two elements at different places of a list. -/
theorem pair_subperm_iff {α : Type} {a b : α} {l : List α} :
    [a, b].Subperm l ↔ ∃ i j : ℕ, i ≠ j ∧ l[i]? = some a ∧ l[j]? = some b := by
  have hlt : ∀ {x y : α} {i j : ℕ}, i < j → l[i]? = some x → l[j]? = some y → [x, y].Sublist l := by
    intro x y i j hij hx hy
    have h₁ : [x].Sublist (l.take j) :=
      List.singleton_sublist.mpr (List.mem_of_getElem? ((List.getElem?_take_of_lt hij).trans hx))
    have h₂ : [y].Sublist (l.drop j) := List.singleton_sublist.mpr
      (List.mem_iff_getElem?.mpr ⟨0, by simpa using hy⟩)
    simpa using h₁.append h₂
  have hback : ∀ {x y : α}, [x, y].Sublist l →
      ∃ i j : ℕ, i ≠ j ∧ l[i]? = some x ∧ l[j]? = some y := by
    intro x y h
    obtain ⟨f, hf⟩ := List.sublist_iff_exists_orderEmbedding_getElem?_eq.mp h
    exact ⟨f 0, f 1, f.injective.ne (by decide), (hf 0).symm, (hf 1).symm⟩
  constructor
  · rintro ⟨l', hperm, hsub⟩
    rcases List.perm_pair.mp hperm with rfl | rfl
    · exact hback hsub
    · obtain ⟨i, j, hne, hi, hj⟩ := hback hsub
      exact ⟨j, i, hne.symm, hj, hi⟩
  · rintro ⟨i, j, hne, hi, hj⟩
    rcases lt_or_gt_of_ne hne with hij | hij
    · exact (hlt hij hi hj).subperm
    · exact (List.Perm.swap b a []).subperm.trans (hlt hij hj hi).subperm

namespace NumericClaimVerifier

/-- Every text and every double of the one is one of the other. -/
structure Derivations.Sub (D E : Derivations) : Prop where
  /-- the texts -/
  tokens : D.tokens ⊆ E.tokens
  /-- the doubles -/
  floats : D.floats ⊆ E.floats

theorem mem_join_tokens {l : List Derivations} {x : String} :
    x ∈ (Derivations.join l).tokens ↔ ∃ D ∈ l, x ∈ D.tokens := by
  induction l with
  | nil => simp [Derivations.join]
  | cons D l ih =>
    change x ∈ D.tokens ++ (Derivations.join l).tokens ↔ _
    simp [ih]

theorem mem_join_floats {l : List Derivations} {x : ℚ} :
    x ∈ (Derivations.join l).floats ↔ ∃ D ∈ l, x ∈ D.floats := by
  induction l with
  | nil => simp [Derivations.join]
  | cons D l ih =>
    change x ∈ D.floats ++ (Derivations.join l).floats ↔ _
    simp [ih]

theorem join_sub {l l' : List Derivations} (h : l ⊆ l') :
    (Derivations.join l).Sub (Derivations.join l') := by
  refine ⟨fun x hx => ?_, fun x hx => ?_⟩
  · obtain ⟨D, hD, hx⟩ := mem_join_tokens.mp hx
    exact mem_join_tokens.mpr ⟨D, h hD, hx⟩
  · obtain ⟨D, hD, hx⟩ := mem_join_floats.mp hx
    exact mem_join_floats.mpr ⟨D, h hD, hx⟩

theorem Derivations.Sub.isDerived {U : CharClass} {D E : Derivations} (h : D.Sub E)
    {token : List Char} (hD : isDerived U D token = true) : isDerived U E token = true := by
  simp only [NumericClaimVerifier.isDerived, Bool.or_eq_true, List.any_eq_true] at hD ⊢
  refine hD.imp (Exists.imp fun x hx => ⟨h.tokens hx.1, hx.2⟩) fun hfloat => ?_
  obtain ⟨v, hv, hfloat⟩ := (Option.any_eq_true _ _).mp hfloat
  obtain ⟨r, hr, hmem⟩ := List.any_eq_true.mp hfloat
  refine (Option.any_eq_true _ _).mpr ⟨v, hv, List.any_eq_true.mpr ⟨r, hr, ?_⟩⟩
  exact decide_eq_true (h.floats (of_decide_eq_true hmem))

/-- The facts that the derivations read. -/
def tenantFacts (dataset : GateDataset) : List GateFact :=
  dataset.facts.filter (sameTenant dataset.organizationId)

/-- **Derivations** grow with the facts that they read. -/
theorem compute_sub {dataset dataset' : GateDataset}
    (h : (tenantFacts dataset).Subperm (tenantFacts dataset')) :
    (computeDeterministicDerivations dataset).Sub (computeDeterministicDerivations dataset') := by
  have hsame : ∀ {f : GateFact} {e : GateDataset}, f ∈ tenantFacts e ↔
      f ∈ e.facts ∧ sameTenant e.organizationId f = true := List.mem_filter
  refine join_sub fun D hD => ?_
  rcases List.mem_append.mp hD with hD | hD
  · obtain ⟨f, hf, hval⟩ := List.mem_filterMap.mp hD
    split at hval
    · rename_i hown
      obtain ⟨hf', hown'⟩ := hsame.mp (h.subset (hsame.mpr ⟨hf, hown⟩))
      exact List.mem_append_left _ (List.mem_filterMap.mpr ⟨f, hf', by rw [if_pos hown', hval]⟩)
    · cases hval
  · obtain ⟨⟨f₁, i⟩, h₁, hD⟩ := List.mem_flatMap.mp hD
    obtain ⟨⟨f₂, j⟩, h₂, hval⟩ := List.mem_filterMap.mp hD
    simp only at hval
    split at hval
    · rename_i hcond
      obtain ⟨hne, hown₁, hown₂⟩ := hcond
      have hpair : [f₁, f₂].Subperm dataset.facts := pair_subperm_iff.mpr
        ⟨i, j, hne, List.mk_mem_zipIdx_iff_getElem?.mp h₁, List.mk_mem_zipIdx_iff_getElem?.mp h₂⟩
      have hpair' : [f₁, f₂].Subperm dataset'.facts := by
        refine List.Subperm.trans ?_ (h.trans List.filter_sublist.subperm)
        simpa [tenantFacts, hown₁, hown₂] using hpair.filter (sameTenant dataset.organizationId)
      obtain ⟨i', j', hne', hi', hj'⟩ := pair_subperm_iff.mp hpair'
      have hown' : ∀ {f k}, (f, k) ∈ dataset.facts.zipIdx →
          sameTenant dataset.organizationId f = true →
            sameTenant dataset'.organizationId f = true := fun hf hown =>
        (hsame.mp (h.subset (hsame.mpr
          ⟨List.mem_of_getElem? (List.mk_mem_zipIdx_iff_getElem?.mp hf), hown⟩))).2
      refine List.mem_append_right _ (List.mem_flatMap.mpr
        ⟨(f₁, i'), List.mk_mem_zipIdx_iff_getElem?.mpr hi', List.mem_filterMap.mpr
          ⟨(f₂, j'), List.mk_mem_zipIdx_iff_getElem?.mpr hj', ?_⟩⟩)
      simp only
      rw [if_pos ⟨hne', hown' h₁ hown₁, hown' h₂ hown₂⟩]
      exact hval
    · cases hval

end NumericClaimVerifier

end Derive

/-! ## Isolation -/

namespace AuthoritativeDataset

variable {U : TextClass} {d d' : AuthoritativeDataset} {narrative : String} {token : List Char}

theorem verify_eq_none_iff : d.verify U narrative = none ↔
    ∀ token ∈ claimedNumbers U.toCharClass narrative,
      occursIn (d.toGate U).text token = true ∨
        isDerived U.toCharClass (computeDeterministicDerivations (d.toGate U)) token = true :=
  FinanceIntelligence.verify_eq_none_iff

/-- A claimed number is a number of the text. -/
theorem numeral_of_claimed (h : token ∈ claimedNumbers U.toCharClass narrative) :
    Numeral U token ∧ ∃ c ∈ token, (U.digit c).isSome = true :=
  numeral_of_lang (Regex.lang_of_mem_findAll (List.mem_of_mem_filter h))

/-- An own fact is one that the derivations read. -/
theorem sameTenant_of_owns {f : PyDict} (h : d.owns U f = true) :
    sameTenant (d.toGate U).organizationId (gateFact U f) = true := by
  cases horg : (d.toGate U).organizationId with
  | none => rfl
  | some o =>
    obtain ⟨v, hv, rfl⟩ := Option.map_eq_some_iff.mp horg
    obtain ⟨hget, -⟩ := Option.filter_eq_some_iff.mp hv
    rw [owns, organizationText, hget] at h
    exact h

theorem filter_owns_eq {l : List PyDict} (h : ∀ f ∈ l, d.owns U f = true) :
    tenantFacts ((d.withFacts (some l)).toGate U) = l.map (gateFact U) := by
  refine List.filter_eq_self.mpr fun g hg => ?_
  obtain ⟨f, hf, rfl⟩ := List.mem_map.mp hg
  exact sameTenant_of_owns (d := d.withFacts (some l)) (h f hf)

/-- The derivations of a dataset read all its own facts. -/
theorem ownFacts_subperm : ((d.ownFacts U).map (gateFact U)).Sublist (tenantFacts (d.toGate U)) := by
  rw [tenantFacts, toGate, List.filter_map]
  refine List.Sublist.map _ ?_
  exact List.monotone_filter_right _ fun f hf => sameTenant_of_owns hf

/-- **What the own part supports** is supported in every dataset that agrees. -/
theorem Agrees.supported (h : d.Agrees U d') (hnumeral : Numeral U token)
    (hdigit : ∃ c ∈ token, (U.digit c).isSome = true) (halone : d.SupportsAlone U token) :
    occursIn (d'.toGate U).text token = true ∨
      isDerived U.toCharClass (computeDeterministicDerivations (d'.toGate U)) token = true := by
  rw [occursIn_toGate hnumeral hdigit]
  rcases halone with ⟨field, hfield, ht⟩ | ⟨f, hf, ht⟩ | hderived
  · exact .inl (.inl ⟨field, (h.others field).mp hfield, ht⟩)
  · have hf' : f ∈ d'.ownFacts U := h.own.mem_iff.mp hf
    exact .inl (.inr ⟨f, List.mem_of_mem_filter hf', ht⟩)
  · refine .inr ((compute_sub ?_).isDerived hderived)
    rw [filter_owns_eq (l := d.ownFacts U) fun f hf => (List.mem_filter.mp hf).2]
    exact (h.own.map _).subperm.trans ownFacts_subperm.subperm

/-- A dataset without foreign facts supports by its own part only. -/
theorem supportsAlone_of_own (hnumeral : Numeral U token)
    (hdigit : ∃ c ∈ token, (U.digit c).isSome = true)
    (h : occursIn ((d.withFacts (some (d.ownFacts U))).toGate U).text token = true ∨
      isDerived U.toCharClass (computeDeterministicDerivations
        ((d.withFacts (some (d.ownFacts U))).toGate U)) token = true) :
    d.SupportsAlone U token := by
  rw [occursIn_toGate hnumeral hdigit] at h
  rcases h with (hfield | hfact) | hderived
  · exact .inl hfield
  · exact .inr (.inl hfact)
  · exact .inr (.inr hderived)

theorem ownFacts_withFacts {l : List PyDict} :
    (d.withFacts (some l)).ownFacts U = l.filter (d.owns U) :=
  rfl

/-- A fact of another organization that lists the given numbers. -/
def foreignFact (U : TextClass) (d : AuthoritativeDataset) (tokens : List (List Char)) : PyDict :=
  [("organization_id".toList, .str ((d.organizationText U).toList ++ ['x'])),
    ("note".toList, .list (tokens.map .str))]

theorem owns_foreignFact {tokens : List (List Char)} :
    d.owns U (foreignFact U d tokens) = false := by
  have hget : (foreignFact U d tokens).get "organization_id" =
      some (.str ((d.organizationText U).toList ++ ['x'])) := by
    simp only [PyDict.get, foreignFact, List.find?_cons, beq_self_eq_true, Option.map_some]
  have horg : PyDict.organization U (foreignFact U d tokens) =
      some (String.ofList ((d.organizationText U).toList ++ ['x'])) := by
    rw [PyDict.organization, hget]
    simp [Option.filter, PyValue.truthy, PyValue.toStr]
  have hne : String.ofList ((d.organizationText U).toList ++ ['x']) ≠ d.organizationText U := by
    intro h
    have := congrArg (fun s : String => s.toList.length) h
    simp at this
  simp only [owns, sameTenant, gateFact, horg, Option.getD_some]
  exact beq_false_of_ne hne

/-- The own facts and such a fact agree with the dataset. -/
theorem agrees_foreign (d : AuthoritativeDataset) (tokens : List (List Char)) :
    d.Agrees U (d.withFacts (some (d.ownFacts U ++ [foreignFact U d tokens]))) := by
  refine ⟨fun field => Iff.rfl, .of_eq ?_⟩
  rw [ownFacts_withFacts, List.filter_append, List.filter_singleton, owns_foreignFact]
  simp [ownFacts]

theorem agrees_own (d : AuthoritativeDataset) :
    d.Agrees U (d.withFacts (some (d.ownFacts U))) := by
  refine ⟨fun field => Iff.rfl, .of_eq ?_⟩
  rw [ownFacts_withFacts]
  simp [ownFacts]

/-- A listed number occurs. -/
theorem occursIn_foreign {tokens : List (List Char)} (hmem : token ∈ tokens)
    (hnumeral : Numeral U token) (hdigit : ∃ c ∈ token, (U.digit c).isSome = true) :
    occursIn ((d.withFacts
      (some (d.ownFacts U ++ [foreignFact U d tokens]))).toGate U).text token = true := by
  have hund : Undelimited token := by
    obtain ⟨c, hc, -⟩ := hdigit
    exact hnumeral.undelimited (List.ne_nil_of_mem hc)
  rw [occursIn_toGate hnumeral hdigit]
  refine .inr ⟨foreignFact U d tokens, by simp [factList, withFacts], .inr ?_⟩
  refine (hund.infix_dict _).mpr ⟨_, List.mem_cons_of_mem _ List.mem_cons_self, ?_⟩
  refine (hund.infix_field _).mpr (.inr ?_)
  refine (hund.infix_list _).mpr ⟨.str token, List.mem_map_of_mem hmem, ?_⟩
  exact infix_reprStr fun c hc => (hnumeral.chars c hc).plain

/-- **Tenant isolation**. Every dataset that differs in foreign facts only gets the same verdict
exactly when the own part supports each claimed number. Otherwise there are two such datasets that
get different verdicts, and a tenant could tell from its verdict what a foreign fact says. -/
theorem verify_isolated_iff (U : TextClass) (narrative : String) (d : AuthoritativeDataset) :
    (∀ d', d.Agrees U d' → d'.verify U narrative = d.verify U narrative) ↔
      ∀ token ∈ claimedNumbers U.toCharClass narrative, d.SupportsAlone U token := by
  constructor
  · intro h token htoken
    have hforeign : (d.withFacts (some (d.ownFacts U ++
        [foreignFact U d (claimedNumbers U.toCharClass narrative)]))).verify U narrative =
          none :=
      verify_eq_none_iff.mpr fun token htoken => .inl
        (occursIn_foreign htoken (numeral_of_claimed htoken).1 (numeral_of_claimed htoken).2)
    have hown : (d.withFacts (some (d.ownFacts U))).verify U narrative = none := by
      rw [h _ (agrees_own d), ← h _ (agrees_foreign d _), hforeign]
    obtain ⟨hnumeral, hdigit⟩ := numeral_of_claimed htoken
    exact supportsAlone_of_own hnumeral hdigit (verify_eq_none_iff.mp hown token htoken)
  · intro h d' hagrees
    have hnone : ∀ e, d.Agrees U e → e.verify U narrative = none := fun e he =>
      verify_eq_none_iff.mpr fun token htoken =>
        he.supported (numeral_of_claimed htoken).1 (numeral_of_claimed htoken).2 (h token htoken)
    rw [hnone d' hagrees, hnone d ⟨fun _ => Iff.rfl, .refl _⟩]

/-- One organization's dataset with a fact of another. -/
def mixedDataset (foreign : List PyDict) : AuthoritativeDataset where
  before := [("organization_id".toList, .str "A".toList)]
  facts := some ([("organization_id".toList, .str "A".toList),
    ("value".toList, .other "200.0".toList "200.0".toList true)] :: foreign)
  after := []
  keys_nodup := by decide
  keys_ne := by decide

/-- The number of a foreign fact passes, though nothing else supports it. -/
theorem verify_not_isolated :
    ¬ ∀ (U : TextClass) (narrative : String) (d d' : AuthoritativeDataset), d.Agrees U d' →
      d'.verify U narrative = d.verify U narrative := by
  intro h
  have hverdict := h .ascii "Fark 350.0 TRY" (mixedDataset [])
    (mixedDataset [[("organization_id".toList, .str "B".toList),
      ("value".toList, .other "350.0".toList "350.0".toList true)]])
    ⟨fun _ => Iff.rfl, .of_eq (by rfl)⟩
  revert hverdict
  decide +kernel

end AuthoritativeDataset

end FinanceIntelligence
