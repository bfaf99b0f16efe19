import FinanceIntelligence.Scanning

/-!
# Rewriting as edit scripts

A general layer: a rewriting of a text that says of every character whether it is **kept** or
replaced. What is left of a part of the text, and where it stands afterwards, can then be told,
which the rewritten text alone does not say.

* `Carries` — a part is carried over **as a whole**, from its place to the place where it stands;
* `carries_iff` — it is exactly if **every character** of it is kept;
* `rewrite` — `re.sub`: what a scan finds is replaced, all else is kept;
* `exists_rewrite_of_match` — **nothing is overlooked** by it.
-/

namespace FinanceIntelligence

universe u

/-- A step of a rewriting. Something is always replaced, by whatever. -/
inductive Edit (α : Type u) where
  /-- a character is kept -/
  | keep (a : α)
  /-- one and some more are replaced -/
  | replace (first : α) (others new : List α)

namespace Edit

variable {α : Type u}

/-- The text that is rewritten. -/
def source : List (Edit α) → List α
  | [] => []
  | .keep a :: l => a :: source l
  | .replace a old _ :: l => a :: old ++ source l

/-- The rewritten text. -/
def result : List (Edit α) → List α
  | [] => []
  | .keep a :: l => a :: result l
  | .replace _ _ new :: l => new ++ result l

/-- For every character of the text, whether it is kept. -/
def kept : List (Edit α) → List Bool
  | [] => []
  | .keep _ :: l => true :: kept l
  | .replace _ old _ :: l => List.replicate (old.length + 1) false ++ kept l

/-- A text that is kept. -/
def keeps (l : List α) : List (Edit α) := l.map .keep

/-- A text that is replaced; nothing cannot be. -/
def swap : List α → List α → List (Edit α)
  | [], _ => []
  | a :: old, new => [.replace a old new]

variable {l l' : List (Edit α)} {old new text : List α}

@[simp] theorem source_append : source (l ++ l') = source l ++ source l' := by
  induction l with
  | nil => rfl
  | cons e l ih => cases e <;> simp [source, ih]

@[simp] theorem result_append : result (l ++ l') = result l ++ result l' := by
  induction l with
  | nil => rfl
  | cons e l ih => cases e <;> simp [result, ih]

@[simp] theorem kept_append : kept (l ++ l') = kept l ++ kept l' := by
  induction l with
  | nil => rfl
  | cons e l ih => cases e <;> simp [kept, ih]

@[simp] theorem source_keeps : source (keeps text) = text := by
  induction text with
  | nil => rfl
  | cons a text ih => exact congrArg (a :: ·) ih

@[simp] theorem result_keeps : result (keeps text) = text := by
  induction text with
  | nil => rfl
  | cons a text ih => exact congrArg (a :: ·) ih

@[simp] theorem kept_keeps : kept (keeps text) = List.replicate text.length true := by
  induction text with
  | nil => rfl
  | cons a text ih => exact congrArg (true :: ·) ih

@[simp] theorem keeps_append {text' : List α} : keeps (text ++ text') = keeps text ++ keeps text' :=
  List.map_append

@[simp] theorem source_swap : source (swap old new) = old := by
  cases old <;> simp [swap, source]

theorem result_swap (h : old ≠ []) : result (swap old new) = new := by
  cases old with
  | nil => exact absurd rfl h
  | cons a old => exact List.append_nil new

@[simp] theorem kept_swap : kept (swap old new) = List.replicate old.length false := by
  cases old with
  | nil => rfl
  | cons a old => exact List.append_nil _

@[simp] theorem length_kept : (kept l).length = (source l).length := by
  induction l with
  | nil => rfl
  | cons e l ih => cases e <;> simp [kept, source, ih, Nat.add_right_comm]

/-! ## What is carried over -/

/-- The rewriting carries `w`, which stands between `A` and `B`, over as a whole: it stands
between `A'` and `B'` then. -/
def Carries (l : List (Edit α)) (A w B A' B' : List α) : Prop :=
  ∃ before after, l = before ++ keeps w ++ after ∧ source before = A ∧ source after = B ∧
    result before = A' ∧ result after = B'

variable {A w B A' B' : List α}

theorem Carries.source (h : Carries l A w B A' B') : source l = A ++ w ++ B := by
  obtain ⟨before, after, rfl, rfl, rfl, -, -⟩ := h
  simp

theorem Carries.result (h : Carries l A w B A' B') : result l = A' ++ w ++ B' := by
  obtain ⟨before, after, rfl, -, -, rfl, rfl⟩ := h
  simp

/-- A kept character parts the rewriting. -/
theorem exists_split {a : α} (hsource : Edit.source l = A ++ a :: B)
    (hkept : (kept l)[A.length]? = some true) :
    ∃ before after, l = before ++ .keep a :: after ∧ Edit.source before = A ∧
      Edit.source after = B := by
  induction l generalizing A with
  | nil => simp [Edit.source] at hsource
  | cons e l ih =>
    cases e with
    | keep b =>
      cases A with
      | nil =>
        obtain ⟨rfl, rfl⟩ := List.cons.inj hsource
        exact ⟨[], l, rfl, rfl, rfl⟩
      | cons c A =>
        obtain ⟨rfl, htail⟩ := List.cons.inj hsource
        obtain ⟨before, after, rfl, rfl, rfl⟩ := ih htail hkept
        exact ⟨.keep b :: before, after, rfl, rfl, rfl⟩
    | replace b old new =>
      -- the character stands behind what is replaced
      have hle : old.length + 1 ≤ A.length := by
        by_contra hlt
        rw [kept, List.getElem?_append_left (by simpa using hlt)] at hkept
        simp [List.getElem?_replicate] at hkept
      have hprefix : b :: old <+: A := by
        refine List.prefix_of_prefix_length_le ⟨Edit.source l, hsource⟩
          (List.prefix_append A (a :: B)) ?_
        rw [List.length_cons]
        exact hle
      obtain ⟨A, rfl⟩ := hprefix
      have htail : Edit.source l = A ++ a :: B := by
        rw [Edit.source, List.append_assoc] at hsource
        exact List.append_cancel_left hsource
      have hkept : (kept l)[A.length]? = some true := by
        rw [kept, List.getElem?_append_right (by simp)] at hkept
        simpa using hkept
      obtain ⟨before, after, rfl, rfl, rfl⟩ := ih htail hkept
      exact ⟨.replace b old new :: before, after, rfl, rfl, rfl⟩

/-- Nothing is inserted where nothing is replaced. -/
theorem eq_nil_of_source_eq_nil (h : Edit.source l = []) : l = [] := by
  cases l with
  | nil => rfl
  | cons e l => cases e <;> cases h

/-- **A part is carried over** exactly if every character of it is kept. -/
theorem carries_iff (hw : w ≠ []) (hsource : Edit.source l = A ++ w ++ B) :
    (∃ A' B', Carries l A w B A' B') ↔
      ∀ i < w.length, (kept l)[A.length + i]? = some true := by
  constructor
  · rintro ⟨A', B', before, after, rfl, rfl, rfl, -, -⟩ i hi
    rw [kept_append, kept_append, List.append_assoc, List.getElem?_append_right (by simp),
      List.getElem?_append_left (by simpa using hi), kept_keeps, List.getElem?_replicate]
    simp [hi]
  · intro hkept
    induction w generalizing l A with
    | nil => exact absurd rfl hw
    | cons a w ih =>
      rw [List.append_assoc, List.cons_append] at hsource
      obtain ⟨before, after, rfl, rfl, hafter⟩ := exists_split hsource
        (hkept 0 (Nat.succ_pos _))
      cases w with
      | nil => exact ⟨_, _, before, after, by simp [keeps], rfl, hafter, rfl, rfl⟩
      | cons b w =>
        have hrest : ∀ i < (b :: w).length,
            (kept after)[([] : List α).length + i]? = some true := by
          intro i hi
          have := hkept (i + 1) (Nat.succ_lt_succ hi)
          rw [kept_append, List.getElem?_append_right (by simp), length_kept,
            Nat.add_sub_cancel_left] at this
          simpa [kept] using this
        obtain ⟨A', B', before', after', rfl, hnil, rfl, -, -⟩ :=
          ih (List.cons_ne_nil b w) hafter hrest
        obtain rfl := eq_nil_of_source_eq_nil hnil
        exact ⟨_, _, before, after', by simp [keeps], rfl, rfl, rfl, rfl⟩

/-- A part of which a character is replaced is not carried over. -/
theorem not_carries_of_replaced {i : ℕ} (hi : i < w.length)
    (h : (kept l)[A.length + i]? = some false) : ¬ Carries l A w B A' B' := by
  intro hcarries
  have hw : w ≠ [] := List.ne_nil_of_length_pos (Nat.zero_lt_of_lt hi)
  have hkept := (carries_iff hw hcarries.source).mp ⟨A', B', hcarries⟩ i hi
  rw [h] at hkept
  cases hkept

/-- What rewrites a beginning of the text is told by it. -/
theorem eq_of_source_eq {before before' after after' : List (Edit α)}
    (h : before ++ after = before' ++ after') (hsource : Edit.source before = Edit.source before') :
    before = before' := by
  induction before generalizing before' with
  | nil => exact (eq_nil_of_source_eq_nil hsource.symm).symm
  | cons e before ih =>
    cases before' with
    | nil => exact eq_nil_of_source_eq_nil hsource
    | cons e' before' =>
      obtain ⟨rfl, htail⟩ := List.cons.inj h
      refine congrArg _ (ih htail ?_)
      cases e with
      | keep a => exact (List.cons.inj hsource).2
      | replace a old new => exact List.append_cancel_left hsource

/-- Where it stands afterwards is told by where it stood. -/
theorem Carries.unique {A'' B'' : List α} (h : Carries l A w B A' B')
    (h' : Carries l A w B A'' B'') : A' = A'' ∧ B' = B'' := by
  obtain ⟨before, after, hl, hA, -, rfl, rfl⟩ := h
  obtain ⟨before', after', hl', hA', -, rfl, rfl⟩ := h'
  rw [hl, List.append_assoc, List.append_assoc] at hl'
  obtain rfl := eq_of_source_eq hl' (hA.trans hA'.symm)
  rw [List.append_cancel_left (List.append_cancel_left hl')]
  exact ⟨rfl, rfl⟩

/-- A part of what is carried over is carried over. -/
theorem Carries.part {w' w'' : List α} (h : Carries l A (w' ++ w ++ w'') B A' B') :
    Carries l (A ++ w') w (w'' ++ B) (A' ++ w') (w'' ++ B') := by
  obtain ⟨before, after, rfl, rfl, rfl, rfl, rfl⟩ := h
  exact ⟨before ++ keeps w', keeps w'' ++ after, by simp, by simp, by simp, by simp, by simp⟩

/-- What is carried over is carried over behind something else. -/
theorem Carries.prepend (h : Carries l A w B A' B') (l' : List (Edit α)) :
    Carries (l' ++ l) (Edit.source l' ++ A) w B (Edit.result l' ++ A') B' := by
  obtain ⟨before, after, rfl, rfl, rfl, rfl, rfl⟩ := h
  exact ⟨l' ++ before, after, by simp, by simp, rfl, by simp, rfl⟩

/-- A text of which all is kept is carried over where it is. -/
theorem carries_keeps : Carries (keeps (A ++ w ++ B)) A w B A B :=
  ⟨keeps A, keeps B, by simp, by simp, by simp, by simp, by simp⟩

/-- What stands in the rewritten text was there, or was put there. -/
theorem forall_mem_result {P : α → Prop} (hsource : ∀ a ∈ Edit.source l, P a)
    (hnew : ∀ a old new, .replace a old new ∈ l → ∀ b ∈ new, P b) : ∀ a ∈ Edit.result l, P a := by
  induction l with
  | nil => exact fun a ha => absurd ha List.not_mem_nil
  | cons e l ih =>
    have htail : ∀ a ∈ Edit.result l, P a := by
      refine ih (fun a ha => hsource a ?_) fun a old new hmem =>
        hnew a old new (List.mem_cons_of_mem e hmem)
      cases e with
      | keep b => exact List.mem_cons_of_mem b ha
      | replace b old new => exact List.mem_append_right (b :: old) ha
    cases e with
    | keep b => exact List.forall_mem_cons.mpr ⟨hsource b List.mem_cons_self, htail⟩
    | replace b old new =>
      exact List.forall_mem_append.mpr ⟨hnew b old new List.mem_cons_self, htail⟩

end Edit

/-! ## Rewriting what a scan finds -/

section Rewrite

variable {γ : Type} (f : Spot → Option (γ × Spot)) (edit : γ → List (Edit Char))

/-- The rewriting of what follows a place. The number bounds its length. -/
def rewriteFrom : ℕ → Spot → List (Edit Char)
  | 0, _ => []
  | n + 1, x =>
    match x.rest, f x with
    | [], _ => []
    | _ :: _, some (captured, y) => edit captured ++ rewriteFrom n y
    | c :: cs, none => .keep c :: rewriteFrom n ⟨some c, cs⟩

/-- `re.sub`, what follows a place. -/
def rewriteAt (x : Spot) : List (Edit Char) := rewriteFrom f edit x.rest.length x

/-- `re.sub`. -/
def rewrite (text : List Char) : List (Edit Char) := rewriteAt f edit (.start text)

/-- What rewrites a match is about its text. -/
def Rewrites : Prop := ∀ x captured y, f x = some (captured, y) →
  x.Leads (Edit.source (edit captured)) y ∧ Edit.source (edit captured) ≠ []

variable {f edit} {n : ℕ} {x y z : Spot} {captured : γ} {m : List Char}

theorem Rewrites.reads (hf : Rewrites f edit) : Reads f :=
  fun x captured y h => ⟨_, (hf x captured y h).2, (hf x captured y h).1⟩

/-- The bound does not matter. -/
theorem rewriteFrom_eq (hf : Rewrites f edit) (hn : x.rest.length ≤ n) :
    rewriteFrom f edit n x = rewriteAt f edit x := by
  have hbounds : ∀ (n m : ℕ) (x : Spot), x.rest.length ≤ n → x.rest.length ≤ m →
      rewriteFrom f edit n x = rewriteFrom f edit m x := by
    intro n
    induction n with
    | zero =>
      intro m x hn _
      have hnil : x.rest = [] := List.eq_nil_of_length_eq_zero (Nat.le_zero.mp hn)
      cases m with
      | zero => rfl
      | succ m => rw [rewriteFrom, rewriteFrom, hnil]
    | succ n ih =>
      intro m x hn hm
      obtain ⟨prev, rest⟩ := x
      cases rest with
      | nil => cases m <;> rfl
      | cons c cs =>
        cases m with
        | zero => simp at hm
        | succ m =>
          rw [rewriteFrom, rewriteFrom]
          cases hmatch : f ⟨prev, c :: cs⟩ with
          | none =>
            exact congrArg _ (ih m _ (Nat.le_of_succ_le_succ hn) (Nat.le_of_succ_le_succ hm))
          | some found =>
            obtain ⟨captured, y⟩ := found
            obtain ⟨hleads, hne⟩ := hf _ _ _ hmatch
            have hlength := hleads.length
            have hpos := List.length_pos_iff.mpr hne
            exact congrArg _ (ih m y (by omega) (by omega))
  exact hbounds n _ x hn (Nat.le_refl _)

@[simp] theorem rewriteAt_nil (prev : Option Char) : rewriteAt f edit ⟨prev, []⟩ = [] := rfl

theorem rewriteAt_of_none {prev : Option Char} {c : Char} {cs : List Char}
    (h : f ⟨prev, c :: cs⟩ = none) :
    rewriteAt f edit ⟨prev, c :: cs⟩ = .keep c :: rewriteAt f edit ⟨some c, cs⟩ := by
  rw [rewriteAt, List.length_cons, rewriteFrom, h]
  rfl

theorem rewriteAt_of_some (hf : Rewrites f edit) (h : f x = some (captured, y)) :
    rewriteAt f edit x = edit captured ++ rewriteAt f edit y := by
  obtain ⟨hleads, hne⟩ := hf _ _ _ h
  have hlength := hleads.length
  have hpos := List.length_pos_iff.mpr hne
  obtain ⟨prev, rest⟩ := x
  cases rest with
  | nil => simp only [List.length_nil] at hlength; omega
  | cons c cs =>
    rw [rewriteAt, List.length_cons, rewriteFrom, h]
    exact congrArg _ (rewriteFrom_eq hf (by simp only [List.length_cons] at hlength; omega))

/-- What rewrites a text is about it. -/
theorem source_rewriteAt (hf : Rewrites f edit) (x : Spot) :
    Edit.source (rewriteAt f edit x) = x.rest := by
  induction hn : x.rest.length using Nat.strongRecOn generalizing x with
  | ind n ih =>
    obtain ⟨prev, rest⟩ := x
    cases rest with
    | nil => rfl
    | cons c cs =>
      cases hmatch : f ⟨prev, c :: cs⟩ with
      | none =>
        rw [rewriteAt_of_none hmatch, Edit.source, ih cs.length (by simp at hn; omega) _ rfl]
      | some found =>
        obtain ⟨captured, y⟩ := found
        obtain ⟨hleads, hne⟩ := hf _ _ _ hmatch
        have hlength := hleads.length
        have hpos := List.length_pos_iff.mpr hne
        rw [rewriteAt_of_some hf hmatch, Edit.source_append, ih y.rest.length (by omega) _ rfl,
          hleads.rest]

theorem source_rewrite (hf : Rewrites f edit) (text : List Char) :
    Edit.source (rewrite f edit text) = text := source_rewriteAt hf _

/-- At no place of `m`, which `rest` follows, something of the kind stands. -/
def Skips (At : List Char → Prop) (m rest : List Char) : Prop :=
  ∀ m₁ m₂, m = m₁ ++ m₂ → m₂ ≠ [] → ¬ At (m₂ ++ rest)

section Skips

variable {At : List Char → Prop} {m m' rest : List Char}

theorem skips_nil : Skips At [] rest := fun _ _ h hne =>
  absurd (List.append_eq_nil_iff.mp h.symm).2 hne

theorem skips_cons_iff {c : Char} :
    Skips At (c :: m) rest ↔ ¬ At (c :: (m ++ rest)) ∧ Skips At m rest := by
  constructor
  · exact fun h => ⟨h [] (c :: m) rfl (List.cons_ne_nil c m), fun m₁ m₂ heq =>
      h (c :: m₁) m₂ (congrArg _ heq)⟩
  · rintro ⟨hhere, hm⟩ m₁ m₂ heq hne
    cases m₁ with
    | nil =>
      obtain rfl : c :: m = m₂ := heq
      exact hhere
    | cons d m₁ => exact hm m₁ m₂ (List.cons.inj heq).2 hne

theorem skips_append_iff :
    Skips At (m ++ m') rest ↔ Skips At m (m' ++ rest) ∧ Skips At m' rest := by
  induction m with
  | nil => exact (and_iff_right skips_nil).symm
  | cons c m ih =>
    rw [List.cons_append, skips_cons_iff, skips_cons_iff, ih, List.append_assoc, and_assoc]

/-- **Where nothing matches**, all is kept. -/
theorem rewriteAt_of_skips (hAt : ∀ {y : Spot} {r}, f y = some r → At y.rest) (h : Skips At m rest)
    (prev : Option Char) :
    rewriteAt f edit ⟨prev, m ++ rest⟩ =
      Edit.keeps m ++ rewriteAt f edit ⟨(m.getLast?).or prev, rest⟩ := by
  induction m generalizing prev with
  | nil => rfl
  | cons c m ih =>
    obtain ⟨hhere, hm⟩ := skips_cons_iff.mp h
    have hnone : f ⟨prev, c :: (m ++ rest)⟩ = none :=
      Option.eq_none_iff_forall_ne_some.mpr fun r hr => hhere (hAt hr)
    have hlast : ((c :: m).getLast?).or prev = (m.getLast?).or (some c) := by
      cases m with
      | nil => rfl
      | cons d m =>
        rw [List.getLast?_cons_cons, List.getLast?_eq_some_getLast (List.cons_ne_nil d m)]
        rfl
    rw [List.cons_append, rewriteAt_of_none hnone, ih hm, hlast]
    rfl

theorem rewrite_of_skips (hAt : ∀ {y : Spot} {r}, f y = some r → At y.rest)
    (h : Skips At m []) : rewrite f edit m = Edit.keeps m := by
  have hall : rewriteAt f edit ⟨none, m ++ []⟩ = _ := rewriteAt_of_skips hAt h none
  rw [List.append_nil] at hall
  rw [rewrite, Spot.start, hall]
  exact List.append_nil _

end Skips

/-- What replaces something comes from a match. -/
theorem exists_of_mem_rewriteAt (hf : Rewrites f edit) {a : Char} {old new : List Char}
    (h : .replace a old new ∈ rewriteAt f edit x) :
    ∃ captured, .replace a old new ∈ edit captured := by
  induction hn : x.rest.length using Nat.strongRecOn generalizing x with
  | ind n ih =>
    obtain ⟨prev, rest⟩ := x
    cases rest with
    | nil => cases h
    | cons c cs =>
      cases hmatch : f ⟨prev, c :: cs⟩ with
      | none =>
        rw [rewriteAt_of_none hmatch] at h
        rcases List.mem_cons.mp h with h | h
        · cases h
        · exact ih cs.length (by simp at hn; omega) h rfl
      | some found =>
        obtain ⟨captured, y⟩ := found
        obtain ⟨hleads, hne⟩ := hf _ _ _ hmatch
        have hlength := hleads.length
        have hpos := List.length_pos_iff.mpr hne
        rw [rewriteAt_of_some hf hmatch] at h
        rcases List.mem_append.mp h with h | h
        · exact ⟨captured, h⟩
        · exact ih y.rest.length (by omega) h rfl

/-- **A match in a rewriting**: what stands before it, what rewrites it, and what stands behind. -/
structure MatchIn (f : Spot → Option (γ × Spot)) (edit : γ → List (Edit Char)) (x : Spot)
    (before : List (Edit Char)) (z : Spot) (captured : γ) (y : Spot)
    (after : List (Edit Char)) : Prop where
  rewriting : rewriteAt f edit x = before ++ edit captured ++ after
  /-- where it starts -/
  leads : x.Leads (Edit.source before) z
  /-- the match -/
  found : f z = some (captured, y)
  rest : Edit.source after = y.rest

theorem MatchIn.source (hf : Rewrites f edit) {before after : List (Edit Char)}
    (h : MatchIn f edit x before z captured y after) :
    x.rest = Edit.source before ++ (Edit.source (edit captured) ++ y.rest) := by
  rw [← h.rest, ← List.append_assoc, ← Edit.source_append, ← Edit.source_append, ← h.rewriting,
    source_rewriteAt hf]

/-- A match after a kept character. -/
theorem MatchIn.cons {prev : Option Char} {c : Char} {cs : List Char}
    {before after : List (Edit Char)} (hnone : f ⟨prev, c :: cs⟩ = none)
    (h : MatchIn f edit ⟨some c, cs⟩ before z captured y after) :
    MatchIn f edit ⟨prev, c :: cs⟩ (.keep c :: before) z captured y after where
  rewriting := by rw [rewriteAt_of_none hnone, h.rewriting]; rfl
  leads := Spot.leads_cons_iff.mpr ⟨rfl, h.leads⟩
  found := h.found
  rest := h.rest

/-- A match after another one. -/
theorem MatchIn.after (hf : Rewrites f edit) {first : γ} {w : Spot}
    {before after : List (Edit Char)} (hfirst : f x = some (first, w))
    (h : MatchIn f edit w before z captured y after) :
    MatchIn f edit x (edit first ++ before) z captured y after where
  rewriting := by
    rw [rewriteAt_of_some hf hfirst, h.rewriting, List.append_assoc, List.append_assoc,
      List.append_assoc]
  leads := by
    rw [Edit.source_append]
    exact (hf _ _ _ hfirst).1.trans h.leads
  found := h.found
  rest := h.rest

/-- A match at the beginning. -/
theorem MatchIn.first (hf : Rewrites f edit) (h : f x = some (captured, y)) :
    MatchIn f edit x [] x captured y (rewriteAt f edit y) where
  rewriting := rewriteAt_of_some hf h
  leads := .refl x
  found := h
  rest := source_rewriteAt hf y

/-- What a scan finds is rewritten. -/
theorem matchIn_of_mem_scanFrom (hf : Rewrites f edit) (h : (z, captured, y) ∈ scanFrom f n x) :
    ∃ before after, MatchIn f edit x before z captured y after := by
  induction n generalizing x with
  | zero => cases h
  | succ n ih =>
    obtain ⟨prev, rest⟩ := x
    rw [scanFrom] at h
    cases rest with
    | nil => cases h
    | cons c cs =>
      cases hmatch : f ⟨prev, c :: cs⟩ with
      | none =>
        simp only [hmatch] at h
        obtain ⟨before, after, hin⟩ := ih h
        exact ⟨_, after, hin.cons hmatch⟩
      | some found =>
        obtain ⟨first, w⟩ := found
        simp only [hmatch, List.mem_cons, Prod.mk.injEq] at h
        rcases h with ⟨rfl, rfl, rfl⟩ | h
        · exact ⟨[], _, .first hf hmatch⟩
        · obtain ⟨before, after, hin⟩ := ih h
          exact ⟨_, after, hin.after hf hmatch⟩

/-- **Nothing is overlooked**: where something matches, a match is rewritten that starts there or
before and ends behind. -/
theorem exists_rewrite_of_match (hf : Rewrites f edit) (hxz : x.Leads m z)
    (hz : (f z).isSome = true) :
    ∃ before z' captured y after, MatchIn f edit x before z' captured y after ∧
      (∃ u, z'.Leads u z) ∧ y.rest.length < z.rest.length := by
  obtain ⟨z', captured, y, hmem, hu, hlength⟩ :=
    exists_mem_scanFrom hf.reads (Nat.le_refl _) hxz hz
  obtain ⟨before, after, hin⟩ := matchIn_of_mem_scanFrom hf hmem
  exact ⟨before, z', captured, y, after, hin, hu, hlength⟩

/-- What is not kept belongs to a match. -/
theorem exists_match_of_replaced (hf : Rewrites f edit) {i : ℕ}
    (h : (Edit.kept (rewriteAt f edit x))[i]? = some false) :
    ∃ before z captured y after, MatchIn f edit x before z captured y after ∧
      (Edit.source before).length ≤ i ∧
      (Edit.kept (edit captured))[i - (Edit.source before).length]? = some false := by
  induction hn : x.rest.length using Nat.strongRecOn generalizing x i with
  | ind n ih =>
    obtain ⟨prev, rest⟩ := x
    cases rest with
    | nil => cases h
    | cons c cs =>
      cases hmatch : f ⟨prev, c :: cs⟩ with
      | none =>
        rw [rewriteAt_of_none hmatch, Edit.kept] at h
        cases i with
        | zero => cases h
        | succ i =>
          obtain ⟨before, z, captured, y, after, hin, hle, hreplaced⟩ :=
            ih cs.length (by simp at hn; omega) h rfl
          refine ⟨_, z, captured, y, after, hin.cons hmatch, Nat.succ_le_succ hle, ?_⟩
          simpa [Edit.source] using hreplaced
      | some found =>
        obtain ⟨first, w⟩ := found
        obtain ⟨hleads, hne⟩ := hf _ _ _ hmatch
        have hlength := hleads.length
        have hpos := List.length_pos_iff.mpr hne
        rcases Nat.lt_or_ge i (Edit.source (edit first)).length with hlt | hge
        · refine ⟨[], _, first, w, _, .first hf hmatch, Nat.zero_le i, ?_⟩
          rw [rewriteAt_of_some hf hmatch, Edit.kept_append,
            List.getElem?_append_left (by simpa using hlt)] at h
          exact h
        · rw [rewriteAt_of_some hf hmatch, Edit.kept_append,
            List.getElem?_append_right (by simpa using hge), Edit.length_kept] at h
          obtain ⟨before, z, captured, y, after, hin, hle, hreplaced⟩ :=
            ih w.rest.length (by omega) h rfl
          refine ⟨_, z, captured, y, after, hin.after hf hmatch, ?_, ?_⟩
          · rw [Edit.source_append, List.length_append]
            omega
          · rwa [Edit.source_append, List.length_append, ← Nat.sub_sub]

end Rewrite

end FinanceIntelligence
