import FinanceIntelligence.FormulaRounding

/-!
# The inputs of a formula

What a returned ratio says about the figures it was computed from, and which part of them it does
not depend on.

* `likeByLike_of_ok` — **a returned ratio divides like by like**: its balances have one unit, and
  all of its inputs one currency.
* `calculate_relabel` — **the printed scale is only compared**: other labels give the same outcome,
  as long as they agree when the old ones did.
* `calculate_of_scales` — the formulas of two figures refuse labels that differ.
-/

namespace FinanceIntelligence

namespace Formula

/-- The roles of a formula's inputs. -/
def roles (f : Formula) : List InputRole := f.inputRoleSemantics.map (·.1)

/-- The roles of a formula's figures at a point in time. -/
def stockRoles (f : Formula) : List InputRole :=
  (f.inputRoleSemantics.filter (·.2 = .stock)).map (·.1)

/-- Whether a formula refuses figures that were printed in different scales. -/
def comparesScales : Formula → Bool
  | growthRate | loanToDepositRatio | nplRatio => true
  | returnOnAssets | returnOnEquity => false

/-- The inputs in some roles have one label. -/
def Agree (inputs : InputRole → Option FormulaInput) (label : FormulaInput → String)
    (roles : List InputRole) : Prop :=
  ∀ i ∈ roles, ∀ j ∈ roles, ∀ x ∈ inputs i, ∀ y ∈ inputs j, label x = label y

/-- What the inputs of a returned ratio have in common. -/
structure LikeByLike (f : Formula) (inputs : InputRole → Option FormulaInput) : Prop where
  /-- there is an input in every role -/
  supplied : ∀ i ∈ f.roles, (inputs i).isSome
  /-- the balances have one unit -/
  unit : Agree inputs (·.unit) f.stockRoles
  /-- all inputs have one currency -/
  currency : Agree inputs (·.currency) f.roles
  /-- and one scale, where it is compared -/
  scale : f.comparesScales = true → Agree inputs (·.scale) f.roles

/-- The inputs with the scales that other documents printed. -/
def relabel (scales : InputRole → String) (inputs : InputRole → Option FormulaInput) :
    InputRole → Option FormulaInput :=
  fun role => (inputs role).map fun x => { x with scale := scales role }

variable {f : Formula} {inputs : InputRole → Option FormulaInput} {label : FormulaInput → String}

/-- Two roles agree if their inputs have the same label. -/
theorem agree_pair {i j : InputRole} :
    Agree inputs label [i, j] ↔ ∀ x ∈ inputs i, ∀ y ∈ inputs j, label x = label y := by
  constructor
  · exact fun h => h i (by simp) j (by simp)
  · intro h k hk l hl x hx y hy
    simp only [List.mem_cons, List.not_mem_nil, or_false] at hk hl
    obtain rfl | rfl := hk <;> obtain rfl | rfl := hl
    · rw [Option.mem_unique hx hy]
    · exact h x hx y hy
    · exact (h y hy x hx).symm
    · rw [Option.mem_unique hx hy]

/-- Roles whose inputs all have one given label agree. -/
theorem agree_of_eq {l : String} {roles : List InputRole}
    (h : ∀ i ∈ roles, ∀ x ∈ inputs i, label x = l) : Agree inputs label roles :=
  fun i hi j hj x hx y hy => (h i hi x hx).trans (h j hj y hy).symm

/-- **The two shapes of a formula**: two figures at a point in time, or a period's income and two
balances. -/
theorem calculate_shape (f : Formula) :
    (∃ i j offset, f.roles = [i, j] ∧ f.stockRoles = [i, j] ∧ f.comparesScales = true ∧
      ∀ inputs factor, calculate f inputs factor = quotient offset (inputs i) (inputs j)) ∨
    (f.roles = [.periodIncome, .beginningBalance, .endingBalance] ∧
      f.stockRoles = [.beginningBalance, .endingBalance] ∧ f.comparesScales = false ∧
      ∀ inputs factor, calculate f inputs factor = returnOn factor (inputs .periodIncome)
        (inputs .beginningBalance) (inputs .endingBalance)) := by
  cases f with
  | growthRate =>
    refine .inl ⟨.currentValue, .comparisonValue, (workingContext.sub · 1), rfl, rfl, rfl, ?_⟩
    intro inputs factor
    rw [calculate, growth]
  | loanToDepositRatio =>
    refine .inl ⟨.numerator, .denominator, id, rfl, rfl, rfl, fun inputs factor => ?_⟩
    rw [calculate, loanToDeposit]
  | nplRatio =>
    refine .inl ⟨.numerator, .denominator, id, rfl, rfl, rfl, fun inputs factor => ?_⟩
    rw [calculate, npl]
  | returnOnAssets => exact .inr ⟨rfl, rfl, rfl, fun _ _ => rfl⟩
  | returnOnEquity => exact .inr ⟨rfl, rfl, rfl, fun _ _ => rfl⟩

/-! ## What is checked -/

theorem comparable_eq_ok {x y : FormulaInput} (h : comparable x y = .ok ()) :
    x.unit = y.unit ∧ x.currency = y.currency ∧ x.scale = y.scale := by
  rw [comparable] at h
  split_ifs at h with hunit hcurrency hscale
  push Not at hunit
  exact ⟨hunit.2.2, not_not.mp hcurrency, not_not.mp hscale⟩

/-- A returned quotient is one of two figures that can be compared. -/
theorem quotient_eq_ok {offset : ℚ → ℚ} {x y : Option FormulaInput} {r : FormulaResult}
    (h : quotient offset x y = .ok r) :
    ∃ a b, x = some a ∧ y = some b ∧
      a.unit = b.unit ∧ a.currency = b.currency ∧ a.scale = b.scale := by
  cases x with
  | none => simp [quotient] at h
  | some a =>
    cases y with
    | none => simp [quotient] at h
    | some b =>
      obtain ⟨⟨⟩, hcomparable, -⟩ := exceptBind_eq_ok.mp h
      exact ⟨a, b, rfl, rfl, comparable_eq_ok hcomparable⟩

/-- A returned return is one on two balances in one unit, in the currency of all three. -/
theorem returnOn_eq_ok {factor : ℚ} {inc beg fin : Option FormulaInput} {r : FormulaResult}
    (h : returnOn factor inc beg fin = .ok r) :
    ∃ a b c, inc = some a ∧ beg = some b ∧ fin = some c ∧
      b.unit = c.unit ∧ b.currency = c.currency ∧ a.currency = b.currency := by
  cases inc with
  | none => simp [returnOn] at h
  | some a =>
    cases beg with
    | none => simp [returnOn] at h
    | some b =>
      cases fin with
      | none => simp [returnOn] at h
      | some c =>
        rw [returnOn] at h
        split_ifs at h with hid hunit hcurrency
        push Not at hunit hcurrency
        exact ⟨a, b, c, rfl, rfl, rfl, hunit.2.2.2, hcurrency.1, hcurrency.2⟩

/-- **A returned ratio divides like by like.** -/
theorem likeByLike_of_ok {factor : ℚ} {r : FormulaResult}
    (h : calculate f inputs factor = .ok r) : LikeByLike f inputs := by
  obtain ⟨i, j, offset, hroles, hstock, -, hcalculate⟩ | ⟨hroles, hstock, hscales, hcalculate⟩ :=
    calculate_shape f
  · rw [hcalculate] at h
    obtain ⟨a, b, ha, hb, hunit, hcurrency, hscale⟩ := quotient_eq_ok h
    refine ⟨?_, ?_, ?_, fun _ => ?_⟩
    · simp [hroles, ha, hb]
    · simp [hstock, agree_pair, ha, hb, hunit]
    · simp [hroles, agree_pair, ha, hb, hcurrency]
    · simp [hroles, agree_pair, ha, hb, hscale]
  · rw [hcalculate] at h
    obtain ⟨a, b, c, ha, hb, hc, hunit, hcurrency, hincome⟩ := returnOn_eq_ok h
    refine ⟨?_, ?_, agree_of_eq (l := a.currency) ?_, fun h => ?_⟩
    · simp [hroles, ha, hb, hc]
    · simp [hstock, agree_pair, hb, hc, hunit]
    · simp [hroles, ha, hb, hc, ← hcurrency, ← hincome]
    · simp [hscales] at h

/-! ## Other scales -/

/-- A quotient depends on whether the scales are equal, and not on what they are. -/
theorem quotient_relabel {offset : ℚ → ℚ} {x y : Option FormulaInput} {s t : String}
    (h : ∀ a ∈ x, ∀ b ∈ y, (a.scale = b.scale ↔ s = t)) :
    quotient offset (x.map ({ · with scale := s })) (y.map ({ · with scale := t })) =
      quotient offset x y := by
  cases x with
  | none => rfl
  | some a =>
    cases y with
    | none => rfl
    | some b => simp [quotient, comparable, h a rfl b rfl]

/-- A return does not depend on the scales. -/
theorem returnOn_relabel {factor : ℚ} {inc beg fin : Option FormulaInput} {s t u : String} :
    returnOn factor (inc.map ({ · with scale := s })) (beg.map ({ · with scale := t }))
        (fin.map ({ · with scale := u })) = returnOn factor inc beg fin := by
  cases inc with
  | none => rfl
  | some a =>
    cases beg with
    | none => rfl
    | some b =>
      cases fin with
      | none => rfl
      | some c => rfl

/-- **The printed scale is only compared**: labels that agree when the old ones did give the same
outcome. -/
theorem calculate_relabel {scales : InputRole → String} {factor : ℚ}
    (h : f.comparesScales = true →
      (Agree inputs (·.scale) f.roles ↔ Agree (relabel scales inputs) (·.scale) f.roles)) :
    calculate f (relabel scales inputs) factor = calculate f inputs factor := by
  obtain ⟨i, j, offset, hroles, -, hscales, hcalculate⟩ | ⟨-, -, -, hcalculate⟩ :=
    calculate_shape f
  · rw [hcalculate, hcalculate]
    refine quotient_relabel fun a ha b hb => ?_
    have hiff := h hscales
    rw [hroles, agree_pair, agree_pair] at hiff
    simpa [relabel, Option.mem_def.mp ha, Option.mem_def.mp hb] using hiff
  · rw [hcalculate, hcalculate]
    exact returnOn_relabel

/-- Two figures in one unit and one currency are refused for their scales. -/
theorem quotient_of_scales {offset : ℚ → ℚ} {a b : FormulaInput} (hne : a.unit ≠ "")
    (hunit : a.unit = b.unit) (hcurrency : a.currency = b.currency) (hscale : a.scale ≠ b.scale) :
    quotient offset (some a) (some b) = .error (.value "SCALE_NORMALIZATION_ERROR") := by
  have hcomparable : comparable a b = .error (.value "SCALE_NORMALIZATION_ERROR") := by
    simp [comparable, hne, ← hunit, hcurrency, hscale]
  simp only [quotient, hcomparable]
  rfl

/-- The formulas of two figures refuse scales that differ. -/
theorem calculate_of_scales {factor : ℚ} (hscales : f.comparesScales = true)
    (hsupplied : ∀ i ∈ f.roles, (inputs i).isSome)
    (hne : ∀ i ∈ f.roles, ∀ x ∈ inputs i, x.unit ≠ "") (hunit : Agree inputs (·.unit) f.roles)
    (hcurrency : Agree inputs (·.currency) f.roles) (h : ¬ Agree inputs (·.scale) f.roles) :
    calculate f inputs factor = .error (.value "SCALE_NORMALIZATION_ERROR") := by
  obtain ⟨i, j, offset, hroles, -, -, hcalculate⟩ | ⟨-, -, hno, -⟩ := calculate_shape f
  · obtain ⟨a, ha⟩ := Option.isSome_iff_exists.mp (hsupplied i (by simp [hroles]))
    obtain ⟨b, hb⟩ := Option.isSome_iff_exists.mp (hsupplied j (by simp [hroles]))
    rw [hroles, agree_pair] at hunit hcurrency h
    rw [hcalculate, ha, hb]
    refine quotient_of_scales (hne i (by simp [hroles]) a ha) (hunit a ha b hb)
      (hcurrency a ha b hb) fun hscale => h fun x hx y hy => ?_
    rwa [Option.mem_unique hx ha, Option.mem_unique hy hb]
  · rw [hscales] at hno
    cases hno

/-- **What the inputs of a returned ratio have in common**, and what becomes of inputs that differ
in their printed scales only. -/
theorem ratio_inputs (f : Formula) (inputs : InputRole → Option FormulaInput) (factor : ℚ) :
    (∀ r, calculate f inputs factor = .ok r → LikeByLike f inputs) ∧
    (∀ scales, (f.comparesScales = true →
        (Agree inputs (·.scale) f.roles ↔ Agree (relabel scales inputs) (·.scale) f.roles)) →
      calculate f (relabel scales inputs) factor = calculate f inputs factor) ∧
    (f.comparesScales = true → (∀ i ∈ f.roles, (inputs i).isSome) →
      (∀ i ∈ f.roles, ∀ x ∈ inputs i, x.unit ≠ "") → Agree inputs (·.unit) f.roles →
      Agree inputs (·.currency) f.roles → ¬ Agree inputs (·.scale) f.roles →
        calculate f inputs factor = .error (.value "SCALE_NORMALIZATION_ERROR")) :=
  ⟨fun _ h => likeByLike_of_ok h, fun _ h => calculate_relabel h, calculate_of_scales⟩

/-! ## Loans in thousands, deposits in millions -/

/-- Scales that differ between the loans and the deposits. -/
def apartScales : InputRole → String
  | .numerator => "THOUSAND"
  | _ => "MILLION"

/-- Loans and deposits in lira are divided. -/
theorem twoThirds_isOk : (calculate .loanToDepositRatio twoThirds 1).isOk = true := by
  decide +kernel

/-- The same figures from documents with different scales are refused. -/
theorem twoThirds_apart : calculate .loanToDepositRatio (relabel apartScales twoThirds) 1 =
    .error (.value "SCALE_NORMALIZATION_ERROR") :=
  quotient_of_scales (by decide) rfl rfl (by decide)

/-- The figures of a loan to deposit ratio, with one scale and with two. -/
theorem ratio_inputs_thirds : LikeByLike .loanToDepositRatio twoThirds ∧
    calculate .loanToDepositRatio (relabel (fun _ => "THOUSAND") twoThirds) 1 =
      calculate .loanToDepositRatio twoThirds 1 ∧
    calculate .loanToDepositRatio (relabel apartScales twoThirds) 1 =
      .error (.value "SCALE_NORMALIZATION_ERROR") := by
  obtain ⟨r, hr⟩ := exists_of_isOk twoThirds_isOk
  have hroles : Formula.loanToDepositRatio.roles = [.numerator, .denominator] := rfl
  refine ⟨(ratio_inputs .loanToDepositRatio twoThirds 1).1 r hr,
    (ratio_inputs .loanToDepositRatio twoThirds 1).2.1 _ fun _ => ?_,
    (ratio_inputs .loanToDepositRatio (relabel apartScales twoThirds) 1).2.2 rfl ?_ ?_ ?_ ?_ ?_⟩
  · simp [hroles, agree_pair, twoThirds, relabel, liraFigure]
  · simp [hroles, twoThirds, relabel]
  · simp [hroles, twoThirds, relabel, liraFigure]
  · simp [hroles, agree_pair, twoThirds, relabel, liraFigure]
  · simp [hroles, agree_pair, twoThirds, relabel, liraFigure]
  · simp [hroles, agree_pair, twoThirds, relabel, apartScales]

/-- The scale label matters: the same normalised values are divided, and refused. -/
theorem ratio_inputs_labels : ¬ ((∀ f inputs factor r, calculate f inputs factor = .ok r →
      Agree inputs (·.unit) f.roles ∧ Agree inputs (·.currency) f.roles) ∧
    ∀ f inputs scales factor,
      calculate f (relabel scales inputs) factor = calculate f inputs factor) := by
  rintro ⟨-, hlabels⟩
  have hsame := hlabels .loanToDepositRatio twoThirds apartScales 1
  obtain ⟨r, hr⟩ := exists_of_isOk twoThirds_isOk
  rw [twoThirds_apart, hr] at hsame
  cases hsame

end Formula

end FinanceIntelligence
