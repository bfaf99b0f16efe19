import FinanceIntelligence.LlmFactExtraction
import FinanceIntelligence.Occurrences
import Mathlib.Data.List.Forall2

/-!
# Figures that are printed

`verify_and_collect` (llm_fact_extraction_service.py) keeps a figure of the model if its
value occurs in the excerpt that the model cites, once the blanks are gone from both. The
file's own text promises that what is kept is printed there.

* `verifyAndCollect_spec` — **one fact a figure that passes**, in order, and every other
  figure is counted as a rejection;
* `printedFigures_iff` — the facts that are kept are printed figures **exactly if** no value
  that passes is a mere piece of a number or without any digit;
* `verifyAndCollect_keeps_piece` — a piece of a number **passes**: `250` where `1.250` is
  printed, and `1250` where `12`, `50` and `70` stand in three columns.
-/

namespace FinanceIntelligence

/-- The rejections that are counted. -/
def LlmFactExtractionService.LlmExtractionResult.rejected
    (result : LlmFactExtractionService.LlmExtractionResult) : ℕ :=
  result.factsRejectedUnverified + result.factsRejectedUnknownMetric +
    result.factsRejectedPeriodMismatch

namespace LlmFactExtractionService

variable (R : ReaderText)

/-- `verify_and_collect`. -/
def verifyAndCollect (rawFigures : List ModelJson) (batch : Batch)
    (allowedMetrics : List (List Char)) (result : LlmExtractionResult) (periodEnd : Option PyDate) :
    Except ReadError LlmExtractionResult :=
  rawFigures.foldlM (collectFigure R batch allowedMetrics periodEnd) result

/-! ## Complete numbers -/

/-- A text goes on with a number: a digit, or a separator and a digit. -/
def continuesNumber : List Char → Bool
  | [] => false
  | c :: rest => digit R c || ((c == '.' || c == ',') && rest.head?.any (digit R))

/-- No number runs into the place from either side. -/
def apartFromNumbers (before after : List Char) : Bool :=
  !continuesNumber R before.reverse && !continuesNumber R after

/-- **The value stands in the text as a complete number**, after the normalisation of both. -/
def StandsComplete (value text : List Char) : Prop :=
  (normaliseForMatching R value).any (digit R) = true ∧
    StandsIn (apartFromNumbers R) (normaliseForMatching R value) (normaliseForMatching R text)

/-- **The value is a piece of numbers**: wherever it occurs in the text, a number runs into it. -/
def PieceOfNumbers (value text : List Char) : Prop :=
  SpoiltIn (apartFromNumbers R) (normaliseForMatching R value) (normaliseForMatching R text)

theorem standsComplete_iff {value text : List Char} :
    StandsComplete R value text ↔
      (normaliseForMatching R value).any (digit R) = true ∧ ¬ PieceOfNumbers R value text := by
  rw [StandsComplete, PieceOfNumbers, standsIn_iff_not_spoiltIn]

instance (value text : List Char) : Decidable (StandsComplete R value text) := by
  unfold StandsComplete
  infer_instance

/-! ## What a call keeps -/

section Kept

variable {R} {batch : Batch} {allowed : List (List Char)} {periodEnd : Option PyDate}
  {result r : LlmExtractionResult}

/-- The excerpt that a figure cites. -/
def citedExcerpt (batch : Batch) (fields : ModelObject) : Option (ℕ × List Char) :=
  excerptOf (fields.get "excerpt_index") batch

theorem mem_of_citedExcerpt {fields : ModelObject} {x : ℕ × List Char}
    (h : citedExcerpt batch fields = some x) : x ∈ batch := by
  rw [citedExcerpt, excerptOf.eq_def] at h
  split at h
  · rcases Option.ite_none_right_eq_some.mp h with ⟨-, h⟩
    exact List.mem_of_getElem? h
  · exact List.mem_of_getElem? h
  · cases h

/-- The figure is verified and names no other period. -/
def Passes (R : ReaderText) (batch : Batch) (allowed : List (List Char))
    (periodEnd : Option PyDate) (fields : ModelObject) : Prop :=
  Verified R batch allowed fields ∧
    namesAnotherPeriod R (fieldText R fields "raw_label") (optionalText R fields "period_hint")
      periodEnd = false

instance (fields : ModelObject) : Decidable (Passes R batch allowed periodEnd fields) := by
  unfold Passes Verified
  infer_instance

/-- The fact is that of the figure. -/
structure FactOf (R : ReaderText) (batch : Batch) (fields : ModelObject) (fact : ExtractedFact) :
    Prop where
  /-- the metric that was reported -/
  metric : fact.metricCode = fieldText R fields "metric_code"
  /-- the value that was reported -/
  value : fact.rawValue = fieldText R fields "raw_value"
  /-- the position of the excerpt that was cited -/
  excerpt : ∃ x ∈ citedExcerpt batch fields, fact.chunkIndex = x.1

/-- **One figure** is counted, and either kept or counted as a rejection. -/
theorem collectFigure_obj {fields : ModelObject}
    (h : collectFigure R batch allowed periodEnd result (.obj fields) = .ok r) :
    r.factsProposed = result.factsProposed + 1 ∧
      ((Passes R batch allowed periodEnd fields ∧ r.rejected = result.rejected ∧
          ∃ fact, FactOf R batch fields fact ∧ r.facts = result.facts ++ [fact]) ∨
        (¬ Passes R batch allowed periodEnd fields ∧ r.rejected = result.rejected + 1 ∧
          r.facts = result.facts)) := by
  obtain ⟨hcode, hvalue, hlabel, hrest⟩ := collectFigure_isOk_iff.mp ⟨r, h⟩
  simp only [collectFigure, stripOf_eq_ok hcode, stripOf_eq_ok hvalue, stripOf_eq_ok hlabel,
    bind, Except.bind] at h
  split at h
  · -- an unknown metric
    rename_i hallowed
    cases h
    exact ⟨rfl, .inr ⟨fun hpass => hallowed hpass.1.1,
      by simp only [LlmExtractionResult.rejected]; omega, rfl⟩⟩
  rename_i hallowed
  rw [not_not] at hallowed
  split at h
  · -- no such excerpt
    rename_i hnone
    cases h
    refine ⟨rfl, .inr ⟨fun hpass => ?_, by simp only [LlmExtractionResult.rejected]; omega, rfl⟩⟩
    obtain ⟨x, hx, -⟩ := hpass.1.2
    rw [Option.mem_def, hnone] at hx
    cases hx
  rename_i chunkIndex sourceText hcited
  split at h
  · -- the value does not occur
    rename_i hmissing
    cases h
    refine ⟨rfl, .inr ⟨fun hpass => ?_, by simp only [LlmExtractionResult.rejected]; omega, rfl⟩⟩
    obtain ⟨x, hx, hne, hfound⟩ := hpass.1.2
    obtain rfl := Option.some.inj (hcited.symm.trans hx)
    exact hmissing.elim hne fun hnot => hnot hfound
  rename_i hfound
  rw [not_or, not_not] at hfound
  have hverified : Verified R batch allowed fields := ⟨hallowed, _, hcited, hfound⟩
  obtain ⟨hint, hread, htext⟩ := textOf_eq_ok (R := R) (hrest hverified).1
  rw [hread] at h
  simp only [htext] at h
  split at h
  · -- another period
    rename_i hperiod
    cases h
    exact ⟨rfl, .inr ⟨fun hpass => by simp [hpass.2] at hperiod,
      by simp only [LlmExtractionResult.rejected]; omega, rfl⟩⟩
  rename_i hperiod
  obtain ⟨scale, -, h⟩ := exceptBind_eq_ok.mp h
  obtain ⟨currency, -, h⟩ := exceptBind_eq_ok.mp h
  cases h
  exact ⟨rfl, .inl ⟨⟨hverified, Bool.eq_false_iff.mpr hperiod⟩, rfl, _,
    ⟨rfl, rfl, _, hcited, rfl⟩, rfl⟩⟩

/-- **What a call keeps**: one fact a figure that passes, in order; the others are counted. -/
theorem verifyAndCollect_spec {figures : List ModelObject}
    (h : verifyAndCollect R (figures.map .obj) batch allowed result periodEnd = .ok r) :
    ∃ collected, r.facts = result.facts ++ collected ∧
      List.Forall₂ (FactOf R batch) (figures.filter (Passes R batch allowed periodEnd)) collected ∧
      r.factsProposed + result.rejected =
        result.factsProposed + collected.length + r.rejected := by
  induction figures generalizing result with
  | nil =>
    cases h
    exact ⟨[], (List.append_nil _).symm, .nil, by rw [List.length_nil]; omega⟩
  | cons fields figures ih =>
    rw [verifyAndCollect, List.map_cons, foldlM_cons_eq_ok] at h
    obtain ⟨middle, hmiddle, hrun⟩ := h
    obtain ⟨hproposed, hone⟩ := collectFigure_obj hmiddle
    obtain ⟨collected, hfacts, hall, hcount⟩ := ih hrun
    rcases hone with ⟨hpass, hrejected, fact, hfact, hkept⟩ | ⟨hpass, hrejected, hkept⟩
    · refine ⟨fact :: collected, ?_, ?_, ?_⟩
      · rw [hfacts, hkept, List.append_assoc, List.singleton_append]
      · rw [List.filter_cons_of_pos (by simpa using hpass)]
        exact .cons hfact hall
      · rw [List.length_cons]
        omega
    · refine ⟨collected, by rw [hfacts, hkept], ?_, by omega⟩
      rwa [List.filter_cons_of_neg (by simpa using hpass)]

/-- **The fact is a printed figure**: it has a known metric and cites an excerpt of the batch,
in which its value stands as a complete number. -/
structure Printed (R : ReaderText) (batch : Batch) (allowed : List (List Char))
    (fields : ModelObject) (fact : ExtractedFact) : Prop extends FactOf R batch fields fact where
  /-- the metric is known -/
  known : fact.metricCode ∈ allowed
  /-- the value is printed where the figure says -/
  printed : ∃ x ∈ citedExcerpt batch fields, x ∈ batch ∧ fact.chunkIndex = x.1 ∧
    StandsComplete R fact.rawValue x.2

/-- **Every fact that a call adds is a printed figure**, one for each figure that passes, and
the figures that were proposed are those kept and those rejected. -/
def PrintedFigures (R : ReaderText) (batch : Batch) (allowed : List (List Char))
    (periodEnd : Option PyDate) (figures : List ModelObject) (result r : LlmExtractionResult) :
    Prop :=
  ∃ collected, r.facts = result.facts ++ collected ∧
    List.Forall₂ (Printed R batch allowed) (figures.filter (Passes R batch allowed periodEnd))
      collected ∧
    (r.factsProposed - result.factsProposed : ℤ) = collected.length +
      (r.factsRejectedUnverified - result.factsRejectedUnverified) +
      (r.factsRejectedUnknownMetric - result.factsRejectedUnknownMetric) +
      (r.factsRejectedPeriodMismatch - result.factsRejectedPeriodMismatch)

/-- The value of a figure has a digit and is no piece of numbers in the excerpt. -/
def ValueApart (R : ReaderText) (batch : Batch) (fields : ModelObject) : Prop :=
  ∀ x ∈ citedExcerpt batch fields,
    (normaliseForMatching R (fieldText R fields "raw_value")).any (digit R) = true ∧
      ¬ PieceOfNumbers R (fieldText R fields "raw_value") x.2

theorem Printed.valueApart {fields : ModelObject} {fact : ExtractedFact}
    (h : Printed R batch allowed fields fact) : ValueApart R batch fields := by
  intro x hx
  obtain ⟨y, hy, -, -, hstands⟩ := h.printed
  obtain rfl := Option.some.inj (hy.symm.trans hx)
  rw [h.value] at hstands
  exact (standsComplete_iff R).mp hstands

theorem FactOf.printed {fields : ModelObject} {fact : ExtractedFact}
    (h : FactOf R batch fields fact) (hpass : Passes R batch allowed periodEnd fields)
    (hapart : ValueApart R batch fields) : Printed R batch allowed fields fact := by
  obtain ⟨x, hx, hindex⟩ := h.excerpt
  refine ⟨h, by rw [h.metric]; exact hpass.1.1, x, hx, mem_of_citedExcerpt hx, hindex, ?_⟩
  rw [h.value]
  exact (standsComplete_iff R).mpr (hapart x hx)

/-- Of a figure that passes, the value stands apart if its fact is a printed figure. -/
theorem PrintedFigures.valueApart {figures : List ModelObject} {fields : ModelObject}
    (h : PrintedFigures R batch allowed periodEnd figures result r) (hfields : fields ∈ figures)
    (hpass : Passes R batch allowed periodEnd fields) : ValueApart R batch fields := by
  obtain ⟨collected, -, hprinted, -⟩ := h
  have hapart := ((List.forall₂_and_left _ _).mp
    (hprinted.imp fun _ _ hp => ⟨hp.valueApart, hp.toFactOf⟩)).1
  exact hapart fields (List.mem_filter.mpr ⟨hfields, by simpa using hpass⟩)

/-- **Kept figures are printed figures** exactly if, of every figure that is verified and names
no other period, the value has a digit and stands somewhere in the excerpt with no number
running into it. -/
theorem printedFigures_iff {figures : List ModelObject}
    (h : verifyAndCollect R (figures.map .obj) batch allowed result periodEnd = .ok r) :
    PrintedFigures R batch allowed periodEnd figures result r ↔
      ∀ fields ∈ figures, Passes R batch allowed periodEnd fields →
        ValueApart R batch fields := by
  refine ⟨fun hprinted fields => hprinted.valueApart, fun hapart => ?_⟩
  obtain ⟨collected, hfacts, hall, hcount⟩ := verifyAndCollect_spec h
  have hkept : ∀ fields ∈ figures.filter (Passes R batch allowed periodEnd),
      Passes R batch allowed periodEnd fields ∧ ValueApart R batch fields := by
    intro fields hfields
    obtain ⟨hmem, hpass⟩ := List.mem_filter.mp hfields
    have hpass : Passes R batch allowed periodEnd fields := by simpa using hpass
    exact ⟨hpass, hapart fields hmem hpass⟩
  refine ⟨collected, hfacts, ?_, ?_⟩
  · exact ((List.forall₂_and_left _ _).mpr ⟨hkept, hall⟩).imp fun _ _ h => h.2.printed h.1.1 h.1.2
  · simp only [LlmExtractionResult.rejected] at hcount
    omega

end Kept

/-! ## Pieces of numbers -/

instance (batch : Batch) (fields : ModelObject) : Decidable (ValueApart R batch fields) :=
  decidable_of_iff (∀ x ∈ citedExcerpt batch fields,
      StandsComplete R (fieldText R fields "raw_value") x.2) <|
    forall₂_congr fun _ _ => standsComplete_iff R

/-- A figure with one value, of the first excerpt. -/
def revenueFigure (value : String) : ModelObject :=
  [("metric_code".toList, .str "REVENUE".toList), ("raw_label".toList, .str "Net sales".toList),
    ("raw_value".toList, .str value.toList), ("excerpt_index".toList, .int 0)]

theorem printedFigures_revenueFigure :
    ∃ r, verifyAndCollect .ascii ([revenueFigure "1.250"].map .obj)
        [(0, "Net sales 1.250 TL".toList)] ["REVENUE".toList] {} none = .ok r ∧
      PrintedFigures .ascii [(0, "Net sales 1.250 TL".toList)] ["REVENUE".toList] none
        [revenueFigure "1.250"] {} r := by
  obtain ⟨r, hr⟩ := exists_of_isOk (x := verifyAndCollect .ascii ([revenueFigure "1.250"].map .obj)
    [(0, "Net sales 1.250 TL".toList)] ["REVENUE".toList] {} none) (by decide)
  exact ⟨r, hr, (printedFigures_iff hr).mpr (by decide)⟩

/-- A value that is kept although it is only a piece of what is printed. -/
def KeptAsPiece (value text : String) : Prop :=
  ∃ r, verifyAndCollect .ascii ([revenueFigure value].map .obj) [(0, text.toList)]
      ["REVENUE".toList] {} none = .ok r ∧
    ¬ PrintedFigures .ascii [(0, text.toList)] ["REVENUE".toList] none [revenueFigure value] {} r

theorem KeptAsPiece.of_passes {value text : String}
    (hread : (verifyAndCollect .ascii ([revenueFigure value].map .obj) [(0, text.toList)]
      ["REVENUE".toList] {} none).isOk = true)
    (hpass : Passes .ascii [(0, text.toList)] ["REVENUE".toList] none (revenueFigure value))
    (hpiece : ¬ ValueApart .ascii [(0, text.toList)] (revenueFigure value)) :
    KeptAsPiece value text := by
  obtain ⟨r, hr⟩ := exists_of_isOk hread
  exact ⟨r, hr, fun hprinted => hpiece (hprinted.valueApart (List.mem_singleton.mpr rfl) hpass)⟩

/-- **Pieces of numbers pass**: the end of a number, and digits of neighbouring columns. -/
theorem verifyAndCollect_keeps_piece :
    KeptAsPiece "250" "Net sales 1.250 TL" ∧ KeptAsPiece "1250" "Net sales 12 50 70" :=
  ⟨.of_passes (by decide) (by decide +kernel) (by decide +kernel),
    .of_passes (by decide) (by decide +kernel) (by decide +kernel)⟩

end LlmFactExtractionService

end FinanceIntelligence
