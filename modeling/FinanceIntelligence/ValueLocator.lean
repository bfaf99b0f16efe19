import FinanceIntelligence.NumberParsing
import Mathlib.Order.Bounds.Basic

/-!
# Where a figure is printed

`locate_in_words` (value_locator.py) looks for the words of a page that spell a value and
gives the rectangle around them. It tries the words as the first one of a run in turn, and
from each of them up to six words.

* `runLength_eq_some_iff` — from one word on, the run that is found is the **shortest** one;
* `locateIn_spec` — over the page, it is the **first** one, and none is overlooked;
* `valueLocated_iff` — which is a shortest one of the page, as the docstring has it, **exactly
  if** no shorter run comes later (or one with the same rectangle does);
* `locateInWords_passes_over` — otherwise the **longer run wins**.
-/

namespace FinanceIntelligence

namespace ValueLocator

variable {K : Type} (U : CharClass)

/-- A word of a page: its text and its place. -/
structure Word (K : Type) where
  text : List Char
  x0 : K
  top : K
  x1 : K
  bottom : K

/-- A rectangle. -/
@[ext] structure Bbox (K : Type) where
  x0 : K
  y0 : K
  x1 : K
  y1 : K
deriving DecidableEq

/-- `normalise`. -/
def normalise (text : List Char) : List Char :=
  replaceChar '−' '-' (text.filter fun c => !U.space c)

/-- `MAX_WORDS_PER_VALUE`. -/
def maxWordsPerValue : ℕ := 6

/-- `_union_bbox`, of a word and those behind it. -/
def unionBbox [LinearOrder K] (w : Word K) (words : List (Word K)) : Bbox K where
  x0 := (words.map (·.x0)).foldl min w.x0
  y0 := (words.map (·.top)).foldl min w.top
  x1 := (words.map (·.x1)).foldl max w.x1
  y1 := (words.map (·.bottom)).foldl max w.bottom

/-- The words from one on, up to a number of them: how many spell the target behind what was
joined. -/
def runLength (target : List Char) : ℕ → List Char → List (Word K) → Option ℕ
  | 0, _, _ => none
  | _ + 1, _, [] => none
  | n + 1, joined, w :: words =>
    let joined := joined ++ normalise U w.text
    if joined = target then some 1
    else if joined <+: target then (runLength target n joined words).map (· + 1)
    else none

/-- The loop over the first word of a run. -/
def locateIn [LinearOrder K] (target : List Char) : List (Word K) → Option (Bbox K)
  | [] => none
  | w :: words =>
    match runLength U target maxWordsPerValue [] (w :: words) with
    | some length => some (unionBbox w (words.take (length - 1)))
    | none => locateIn target words

/-- `locate_in_words`. -/
def locateInWords [LinearOrder K] (words : List (Word K)) (value : List Char) :
    Option (Bbox K) :=
  let target := normalise U value
  if target = [] then none else locateIn U target words

/-! ## Rectangles -/

section Rectangles

variable [LinearOrder K]

/-- The rectangle of a word. -/
def Word.bbox (w : Word K) : Bbox K := ⟨w.x0, w.top, w.x1, w.bottom⟩

/-- A rectangle is below another one that encloses it. -/
instance : PartialOrder (Bbox K) where
  le b c := c.x0 ≤ b.x0 ∧ c.y0 ≤ b.y0 ∧ b.x1 ≤ c.x1 ∧ b.y1 ≤ c.y1
  le_refl b := ⟨le_rfl, le_rfl, le_rfl, le_rfl⟩
  le_trans b c d h h' :=
    ⟨h'.1.trans h.1, h'.2.1.trans h.2.1, h.2.2.1.trans h'.2.2.1, h.2.2.2.trans h'.2.2.2⟩
  le_antisymm b c h h' := Bbox.ext (h'.1.antisymm h.1) (h'.2.1.antisymm h.2.1)
    (h.2.2.1.antisymm h'.2.2.1) (h.2.2.2.antisymm h'.2.2.2)

theorem Bbox.le_def {b c : Bbox K} :
    b ≤ c ↔ c.x0 ≤ b.x0 ∧ c.y0 ≤ b.y0 ∧ b.x1 ≤ c.x1 ∧ b.y1 ≤ c.y1 :=
  Iff.rfl

/-- **The bounding rectangle** of words: the least one that encloses them all. -/
def Bounds (box : Bbox K) (run : List (Word K)) : Prop := IsLUB {b | ∃ w ∈ run, b = w.bbox} box

theorem le_foldl_min_iff {a b : K} {l : List K} : a ≤ l.foldl min b ↔ a ≤ b ∧ ∀ x ∈ l, a ≤ x := by
  induction l generalizing b with
  | nil => simp
  | cons x l ih => rw [List.foldl_cons, ih, le_min_iff, List.forall_mem_cons, and_assoc]

theorem foldl_max_le_iff {a b : K} {l : List K} : l.foldl max b ≤ a ↔ b ≤ a ∧ ∀ x ∈ l, x ≤ a := by
  induction l generalizing b with
  | nil => simp
  | cons x l ih => rw [List.foldl_cons, ih, max_le_iff, List.forall_mem_cons, and_assoc]

theorem unionBbox_bounds (w : Word K) (words : List (Word K)) :
    Bounds (unionBbox w words) (w :: words) := by
  refine isLUB_iff_le_iff.mpr fun c => ?_
  have hupper : c ∈ upperBounds {b | ∃ v ∈ w :: words, b = v.bbox} ↔
      ∀ v ∈ w :: words, v.bbox ≤ c :=
    ⟨fun h v hv => h ⟨v, hv, rfl⟩, fun h b ⟨v, hv, hb⟩ => hb ▸ h v hv⟩
  rw [hupper]
  simp only [Bbox.le_def, unionBbox, Word.bbox, le_foldl_min_iff, foldl_max_le_iff,
    List.forall_mem_map, List.forall_mem_cons]
  constructor
  · rintro ⟨⟨hx0, hx0s⟩, ⟨hy0, hy0s⟩, ⟨hx1, hx1s⟩, ⟨hy1, hy1s⟩⟩
    exact ⟨⟨hx0, hy0, hx1, hy1⟩, fun v hv => ⟨hx0s v hv, hy0s v hv, hx1s v hv, hy1s v hv⟩⟩
  · rintro ⟨⟨hx0, hy0, hx1, hy1⟩, hall⟩
    exact ⟨⟨hx0, fun v hv => (hall v hv).1⟩, ⟨hy0, fun v hv => (hall v hv).2.1⟩,
      ⟨hx1, fun v hv => (hall v hv).2.2.1⟩, ⟨hy1, fun v hv => (hall v hv).2.2.2⟩⟩

end Rectangles

/-! ## Runs of words -/

/-- What words spell, after the normalisation. -/
def spelling (words : List (Word K)) : List Char := (words.map fun w => normalise U w.text).flatten

@[simp] theorem spelling_nil : spelling U ([] : List (Word K)) = [] := rfl

@[simp] theorem spelling_cons (w : Word K) (words : List (Word K)) :
    spelling U (w :: words) = normalise U w.text ++ spelling U words := by
  simp [spelling]

variable {U} {target joined : List Char} {words : List (Word K)}

/-- The first `k` of at most `n` words, and no fewer, complete what was joined to the target. -/
def ShortestFrom (U : CharClass) (target : List Char) (n : ℕ) (joined : List Char)
    (words : List (Word K)) (k : ℕ) : Prop :=
  0 < k ∧ k ≤ n ∧ k ≤ words.length ∧ joined ++ spelling U (words.take k) = target ∧
    ∀ j < k, 0 < j → joined ++ spelling U (words.take j) ≠ target

/-- The first word completes the target, or it is joined and the others do. -/
theorem shortestFrom_cons {n k : ℕ} {w : Word K} :
    ShortestFrom U target (n + 1) joined (w :: words) k ↔
      (joined ++ normalise U w.text = target ∧ k = 1) ∨
        (joined ++ normalise U w.text ≠ target ∧
          ∃ m, ShortestFrom U target n (joined ++ normalise U w.text) words m ∧ m + 1 = k) := by
  have htake : ∀ j, joined ++ spelling U ((w :: words).take (j + 1)) =
      joined ++ normalise U w.text ++ spelling U (words.take j) := by
    intro j
    rw [List.take_succ_cons, spelling_cons, List.append_assoc]
  have hone : joined ++ spelling U ((w :: words).take 1) = joined ++ normalise U w.text := by
    rw [htake 0, List.take_zero, spelling_nil, List.append_nil]
  constructor
  · rintro ⟨hpos, hn, hlength, hspelt, hleast⟩
    obtain ⟨m, rfl⟩ := Nat.exists_eq_add_of_lt hpos
    rw [Nat.zero_add] at hn hlength hspelt hleast ⊢
    rcases Nat.eq_zero_or_pos m with rfl | hm
    · exact .inl ⟨hone ▸ hspelt, rfl⟩
    · refine .inr ⟨hone ▸ hleast 1 (by omega) Nat.one_pos, m, ⟨hm, by omega, by simpa using hlength,
        htake m ▸ hspelt, fun j hj _ => htake j ▸ hleast (j + 1) (by omega) (by omega)⟩, rfl⟩
  · rintro (⟨hspelt, rfl⟩ | ⟨hnot, m, ⟨hpos, hn, hlength, hspelt, hleast⟩, rfl⟩)
    · exact ⟨by omega, by omega, by simp, hone ▸ hspelt, fun j hj hj0 => by omega⟩
    · refine ⟨by omega, by omega, by simpa using hlength, htake m ▸ hspelt, fun j hj hj0 => ?_⟩
      obtain ⟨i, rfl⟩ := Nat.exists_eq_add_of_lt hj0
      rw [Nat.zero_add] at hj ⊢
      rcases Nat.eq_zero_or_pos i with rfl | hi
      · rwa [hone]
      · rw [htake]
        exact hleast i (by omega) hi

/-- **From one word on** the shortest run is found that spells the target. -/
theorem runLength_eq_some_iff {n k : ℕ} :
    runLength U target n joined words = some k ↔ ShortestFrom U target n joined words k := by
  induction n generalizing joined words k with
  | zero => exact iff_of_false nofun fun ⟨hpos, hn, _⟩ => by omega
  | succ n ih =>
    cases words with
    | nil => exact iff_of_false nofun fun ⟨hpos, _, hlength, _⟩ => by simp at hlength; omega
    | cons w words =>
      rw [shortestFrom_cons, runLength]
      split
      · rename_i hspelt
        simp only [hspelt, true_and, not_true_eq_false, false_and, or_false, ne_eq,
          Option.some.injEq, eq_comm]
      · rename_i hnot
        simp only [hnot, false_and, not_false_eq_true, true_and, false_or, ne_eq]
        split
        · simp only [Option.map_eq_some_iff, ih]
        · -- a run that does not start the target is given up
          rename_i hprefix
          refine iff_of_false nofun ?_
          rintro ⟨m, ⟨-, -, -, hspelt, -⟩, -⟩
          exact hprefix ⟨_, hspelt⟩

/-- Where any number of words completes the target, a least one does. -/
theorem exists_shortestFrom {n k : ℕ} (hpos : 0 < k) (hn : k ≤ n) (hlength : k ≤ words.length)
    (hspelt : joined ++ spelling U (words.take k) = target) :
    ∃ m ≤ k, ShortestFrom U target n joined words m := by
  classical
  have hexists : ∃ m, 0 < m ∧ joined ++ spelling U (words.take m) = target := ⟨k, hpos, hspelt⟩
  obtain ⟨hpos', hspelt'⟩ := Nat.find_spec hexists
  have hle : Nat.find hexists ≤ k := Nat.find_min' hexists ⟨hpos, hspelt⟩
  exact ⟨_, hle, hpos', hle.trans hn, hle.trans hlength, hspelt',
    fun j hj hj0 hj' => Nat.find_min hexists hj ⟨hj0, hj'⟩⟩

/-- **Words that spell the value**: a run of at most six, behind `before`. A value without any
character is spelt by no words. -/
structure SpeltAt (U : CharClass) (value : List Char) (words before run : List (Word K)) :
    Prop where
  /-- the run is part of the page -/
  place : ∃ after, words = before ++ run ++ after
  /-- it is not too long -/
  short : run.length ≤ 6
  /-- there is something to spell -/
  letters : normalise U value ≠ []
  /-- it spells the value -/
  spells : spelling U run = normalise U value

/-- The run that begins first, and of those the one that is shortest. -/
structure Leading (U : CharClass) (value : List Char) (words before run : List (Word K)) : Prop
    extends SpeltAt U value words before run where
  /-- every other run begins later or is as long -/
  first : ∀ before' run', SpeltAt U value words before' run' →
    before.length < before'.length ∨ before.length = before'.length ∧ run.length ≤ run'.length

/-- A run that spells the value, and none does it with fewer words. -/
structure Shortest (U : CharClass) (value : List Char) (words run : List (Word K)) : Prop where
  /-- the run spells the value -/
  spelt : ∃ before, SpeltAt U value words before run
  /-- no other run is shorter -/
  least : ∀ before' run', SpeltAt U value words before' run' → run.length ≤ run'.length

variable {value : List Char} {before before' run run' : List (Word K)}

theorem SpeltAt.ne_nil (h : SpeltAt U value words before run) : run ≠ [] := by
  rintro rfl
  exact h.letters h.spells.symm

/-- A run that begins at the first word. -/
theorem speltAt_nil_iff :
    SpeltAt U value words [] run ↔ ∃ k, 0 < k ∧ k ≤ 6 ∧ k ≤ words.length ∧ run = words.take k ∧
      normalise U value ≠ [] ∧ spelling U run = normalise U value := by
  constructor
  · intro h
    obtain ⟨after, hplace⟩ := h.place
    refine ⟨run.length, List.length_pos_iff.mpr h.ne_nil, h.short, ?_, ?_, h.letters, h.spells⟩
    · rw [hplace]
      simp
    · rw [hplace, List.nil_append, List.take_left]
  · rintro ⟨k, -, hk, -, rfl, hvalue, hspells⟩
    refine ⟨⟨words.drop k, (List.take_append_drop k words).symm⟩, ?_, hvalue, hspells⟩
    exact (List.length_take_le k words).trans hk

/-- A run that begins behind the first word. -/
theorem speltAt_cons_iff {w : Word K} :
    SpeltAt U value (w :: words) (w :: before) run ↔ SpeltAt U value words before run := by
  constructor
  · rintro ⟨⟨after, hplace⟩, hshort, hvalue, hspells⟩
    exact ⟨⟨after, (List.cons.inj hplace).2⟩, hshort, hvalue, hspells⟩
  · rintro ⟨⟨after, rfl⟩, hshort, hvalue, hspells⟩
    exact ⟨⟨after, rfl⟩, hshort, hvalue, hspells⟩

/-- A run begins at the first word or behind it. -/
theorem SpeltAt.nil_or_cons {w : Word K} (h : SpeltAt U value (w :: words) before run) :
    before = [] ∨ ∃ before', before = w :: before' ∧ SpeltAt U value words before' run := by
  cases before with
  | nil => exact .inl rfl
  | cons v before' =>
    obtain ⟨after, hplace⟩ := h.place
    obtain ⟨rfl, -⟩ := List.cons.inj hplace
    exact .inr ⟨before', rfl, speltAt_cons_iff.mp h⟩

/-- Two leading runs are one. -/
theorem Leading.eq (h : Leading U value words before run)
    (h' : Leading U value words before' run') : run = run' := by
  obtain ⟨after, hplace⟩ := h.place
  obtain ⟨after', hplace'⟩ := h'.place
  have hfirst := h.first before' run' h'.toSpeltAt
  have hfirst' := h'.first before run h.toSpeltAt
  rw [hplace, List.append_assoc, List.append_assoc] at hplace'
  obtain ⟨-, hrest⟩ := List.append_inj hplace' (by omega)
  exact (List.append_inj hrest (by omega)).1

section Located

variable [LinearOrder K]

/-- **The first run is found**, and with no rectangle there is none. -/
theorem locateIn_spec (hvalue : normalise U value ≠ []) (words : List (Word K)) :
    match locateIn U (normalise U value) words with
    | some box => ∃ before run, Leading U value words before run ∧ Bounds box run
    | none => ∀ before run, ¬ SpeltAt U value words before run := by
  induction words with
  | nil =>
    intro before run h
    obtain ⟨after, hplace⟩ := h.place
    exact h.ne_nil (by simp_all)
  | cons w words ih =>
    rw [locateIn]
    cases hlength : runLength U (normalise U value) maxWordsPerValue [] (w :: words) with
    | some k =>
      obtain ⟨hpos, hk, hle, hspelt, hleast⟩ := runLength_eq_some_iff.mp hlength
      have htake : w :: words.take (k - 1) = (w :: words).take k := by
        obtain ⟨m, rfl⟩ := Nat.exists_eq_add_of_lt hpos
        simp
      refine ⟨[], (w :: words).take k, ⟨speltAt_nil_iff.mpr ⟨k, hpos, hk, hle, rfl, hvalue, hspelt⟩,
        fun before' run' h' => ?_⟩, htake ▸ unionBbox_bounds w _⟩
      rcases h'.nil_or_cons with rfl | ⟨before', rfl, -⟩
      · obtain ⟨j, hj, -, hjle, rfl, -, hjspelt⟩ := speltAt_nil_iff.mp h'
        refine .inr ⟨rfl, ?_⟩
        rw [List.length_take_of_le hle, List.length_take_of_le hjle]
        exact not_lt.mp fun hlt => hleast j hlt hj hjspelt
      · exact .inl (Nat.succ_pos _)
    | none =>
      -- no run begins at this word
      have hnone : ∀ run, ¬ SpeltAt U value (w :: words) [] run := by
        intro run h
        obtain ⟨j, hj, hj6, hjle, rfl, -, hjspelt⟩ := speltAt_nil_iff.mp h
        obtain ⟨m, -, hm⟩ : ∃ m ≤ j, ShortestFrom U (normalise U value) maxWordsPerValue []
            (w :: words) m := exists_shortestFrom hj hj6 hjle hjspelt
        rw [runLength_eq_some_iff.mpr hm] at hlength
        cases hlength
      dsimp only
      split at ih
      · rename_i box hbox
        obtain ⟨before, run, hleading, hbounds⟩ := ih
        refine ⟨w :: before, run, ⟨speltAt_cons_iff.mpr hleading.toSpeltAt,
          fun before' run' h' => ?_⟩, hbounds⟩
        rcases h'.nil_or_cons with rfl | ⟨before'', rfl, hbehind⟩
        · exact absurd h' (hnone run')
        · simpa using hleading.first before'' run' hbehind
      · intro before run h
        rcases h.nil_or_cons with rfl | ⟨before', rfl, hbehind⟩
        · exact hnone run h
        · exact ih before' run hbehind

/-- **The location is right or absent**: there is a rectangle exactly if words of the page spell
the value, and it bounds a shortest run of such words. -/
def ValueLocated (U : CharClass) (words : List (Word K)) (value : List Char)
    (found : Option (Bbox K)) : Prop :=
  (found.isSome = true ↔ ∃ before run, SpeltAt U value words before run) ∧
    ∀ box ∈ found, ∃ run, Shortest U value words run ∧ Bounds box run

/-- The same rectangles enclose the words of both runs. -/
def SameRectangle (run run' : List (Word K)) : Prop :=
  ∀ box : Bbox K, (∀ w ∈ run, w.bbox ≤ box) ↔ ∀ w ∈ run', w.bbox ≤ box

theorem bounds_iff {box : Bbox K} :
    Bounds box run ↔ ∀ box', box ≤ box' ↔ ∀ w ∈ run, w.bbox ≤ box' := by
  rw [Bounds, isLUB_iff_le_iff]
  refine forall_congr' fun c => iff_congr .rfl ?_
  exact ⟨fun h v hv => h ⟨v, hv, rfl⟩, fun h b ⟨v, hv, hb⟩ => hb ▸ h v hv⟩

/-- **What is located** is right exactly if, where words spell the value, a run with the fewest
words has the rectangle of the run that begins first. -/
theorem valueLocated_iff (words : List (Word K)) (value : List Char) :
    ValueLocated U words value (locateInWords U words value) ↔
      ∀ before run, Leading U value words before run →
        ∃ run', Shortest U value words run' ∧ SameRectangle run run' := by
  rw [locateInWords]
  split
  · -- a value without any character
    rename_i hempty
    have hnone : ∀ before run, ¬ SpeltAt U value words before run := fun _ _ h => h.letters hempty
    exact iff_of_true ⟨iff_of_false nofun fun ⟨_, _, h⟩ => hnone _ _ h, nofun⟩
      fun before run h => absurd h.toSpeltAt (hnone before run)
  · rename_i hvalue
    have hspec := locateIn_spec hvalue words
    split at hspec
    · rename_i box hbox
      rw [hbox]
      obtain ⟨before, run, hleading, hbounds⟩ := hspec
      have hrun := bounds_iff.mp hbounds
      constructor
      · rintro ⟨-, hshortest⟩ before' run' hleading'
        obtain rfl := hleading.eq hleading'
        obtain ⟨run', hrun', hbounds'⟩ := hshortest box rfl
        exact ⟨run', hrun', fun c => (hrun c).symm.trans (bounds_iff.mp hbounds' c)⟩
      · intro hcond
        refine ⟨iff_of_true rfl ⟨before, run, hleading.toSpeltAt⟩, ?_⟩
        intro _ hfound
        obtain rfl := Option.some.inj hfound
        obtain ⟨run', hrun', hsame⟩ := hcond before run hleading
        exact ⟨run', hrun', bounds_iff.mpr fun c => (hrun c).trans (hsame c)⟩
    · rename_i hbox
      rw [hbox]
      exact iff_of_true ⟨iff_of_false nofun fun ⟨_, _, h⟩ => hspec _ _ h, nofun⟩
        fun before run h => absurd h.toSpeltAt (hspec before run)

end Located

/-! ## A longer run that comes first -/

/-- A word on one line of a page. -/
def lineWord (text : String) (x : ℕ) : Word ℕ := ⟨text.toList, x, 100, x + 10, 112⟩

/-- A figure that is set in two words, and once more in one word. -/
def twicePrinted : List (Word ℕ) := [lineWord "5." 0, lineWord "550" 12, lineWord "5.550" 24]

/-- **The longer run wins** if it comes first: the rectangle is that of the two words, and the one
word is passed over. -/
theorem locateInWords_passes_over :
    locateInWords .ascii twicePrinted "5.550".toList = some ⟨0, 100, 22, 112⟩ ∧
      ¬ ValueLocated .ascii twicePrinted "5.550".toList
        (locateInWords .ascii twicePrinted "5.550".toList) := by
  have hfound : locateInWords .ascii twicePrinted "5.550".toList = some ⟨0, 100, 22, 112⟩ := by
    decide
  refine ⟨hfound, ?_⟩
  rw [hfound]
  rintro ⟨-, hshortest⟩
  obtain ⟨run, hrun, hbounds⟩ := hshortest _ rfl
  obtain ⟨before, hspelt⟩ := hrun.spelt
  -- a shortest run is one word, and only the last one spells the value
  have hlast : SpeltAt .ascii "5.550".toList twicePrinted (twicePrinted.take 2)
      [lineWord "5.550" 24] := ⟨⟨[], rfl⟩, by decide, by decide, by decide⟩
  have hone : run.length ≤ 1 := hrun.least _ _ hlast
  obtain ⟨w, rfl⟩ : ∃ w, run = [w] := by
    match run, hspelt.ne_nil, hone with
    | [w], _, _ => exact ⟨w, rfl⟩
  obtain ⟨after, hplace⟩ := hspelt.place
  have hmem : w ∈ twicePrinted := by simp [hplace]
  have hleft : w.bbox ≤ ⟨0, 100, 22, 112⟩ := (bounds_iff.mp hbounds _).mp le_rfl w (by simp)
  have hspells := hspelt.spells
  simp only [twicePrinted, List.mem_cons, List.not_mem_nil, or_false] at hmem
  rcases hmem with rfl | rfl | rfl
  · exact absurd hspells (by decide)
  · exact absurd hspells (by decide)
  · exact absurd hleft.2.2.1 (by decide)

end ValueLocator

end FinanceIntelligence
