import FinanceIntelligence.JobRuns

/-!
# What the numeric gate sees

The gate is handed `{"result_dataset_id": …}` and nothing else, so it has no
facts to derive a number from and searches the text of the id: a narrative passes
exactly when each number that is not exempt occurs in that text. Whether the
number denotes a value of the dataset plays no part.

* `numericGate_exact_iff` — when the gate does **what it is for** nevertheless;
* `gateExact_of_noNumbers`, `gateExact_of_point`, `not_gateExact_of_point` — the same for
  narratives without numbers, and with a **decimal point**, told from the text alone.
-/

namespace FinanceIntelligence

open NumericClaimVerifier QualityGateEngine OrchestratorEngine

/-- A cell of a result dataset. -/
structure DatasetCell where
  canonicalValue : String
  displayValue : String
  measureCode : String := ""
  /-- the currency of its measure -/
  currency : String := "TRY"
  /-- the unit of its measure -/
  unit : String := "CURRENCY"
  /-- the basis of its row -/
  reportingBasis : String := "SOLO"

section Meaning

variable (U : CharClass)

/-- The value of a printed number, whose commas group its digits. -/
def printedValue (s : String) : Option ℚ :=
  match s.toList.filter (· ≠ ',') with
  | '-' :: l => (parseFloat U l).map fun v => -v
  | l => parseFloat U l

/-- The canonical and the display value of a cell, as facts to derive from. -/
def DatasetCell.facts (c : DatasetCell) : List GateFact :=
  [c.canonicalValue, c.displayValue].map fun text =>
    { organizationId := none
      value := printedValue U text
      currency := c.currency
      unit := c.unit
      reportingBasis := c.reportingBasis
      metric := some c.measureCode }

/-- The token is the text or the value of a cell, or derived from the cells. -/
def Denotes (cells : List DatasetCell) (token : List Char) : Prop :=
  let facts := cells.flatMap (DatasetCell.facts U)
  (∃ c ∈ cells, token = c.canonicalValue.toList ∨ token = c.displayValue.toList) ∨
    (∃ f ∈ facts, f.value.isSome = true ∧
      normalizeFinancialToken U token = f.value.map fun v => |v|) ∨
    isDerived U (computeDeterministicDerivations { facts, text := "" }) token = true

instance (cells : List DatasetCell) (token : List Char) : Decidable (Denotes U cells token) :=
  inferInstanceAs (Decidable (_ ∨ _ ∨ _))

/-- The numbers of a narrative that need support. -/
def claimedNumbers (narrative : String) : List (List Char) :=
  (extractNumbersFromText U narrative.toList).filter fun token =>
    !isExempt U token narrative.toList

/-- The gate lets the narrative of a run pass. -/
def GatePasses (narrative : String) (datasetId : Uuid) : Prop :=
  ∃ gates, runAllGates U narrative (datasetSummary datasetId) = .ok gates

/-- Every number of the narrative is the display value of a cell. -/
def DisplaysOnly (narrative : String) (cells : List DatasetCell) : Prop :=
  ∀ token ∈ extractNumbersFromText U narrative.toList, ∃ c ∈ cells, token = c.displayValue.toList

/-- What the gate is for: a narrative that passes claims numbers of the dataset
only, and one that has display values only passes. -/
structure GateExact (narrative : String) (datasetId : Uuid) (cells : List DatasetCell) : Prop where
  sound : GatePasses U narrative datasetId → ∀ token ∈ claimedNumbers U narrative, Denotes U cells token
  /-- it does not reject the truth -/
  complete : DisplaysOnly U narrative cells → GatePasses U narrative datasetId

/-- Each number of the narrative that needs support occurs in the text of the
dataset's id. -/
def OccurInId (narrative : String) (datasetId : Uuid) : Prop :=
  ∀ token ∈ claimedNumbers U narrative, occursIn (datasetSummary datasetId).text token = true

variable {U}

/-- Nothing is derived from no facts. -/
theorem isDerived_datasetSummary (datasetId : Uuid) (token : List Char) :
    isDerived U (computeDeterministicDerivations (datasetSummary datasetId)) token = false := by
  simp [isDerived, computeDeterministicDerivations, datasetSummary, Derivations.join]

/-- No number is unsupported when each claimed one occurs or is derived. -/
theorem verify_eq_none_iff {narrative : String} {dataset : GateDataset} :
    verifyNarrativeNumericClaims U narrative.toList dataset = none ↔
      ∀ token ∈ claimedNumbers U narrative, occursIn dataset.text token = true ∨
        isDerived U (computeDeterministicDerivations dataset) token = true := by
  simp only [verifyNarrativeNumericClaims, List.find?_eq_none, claimedNumbers, List.mem_filter,
    Bool.not_eq_true', Bool.not_eq_false, Bool.or_eq_true, and_imp, or_assoc]
  refine forall₂_congr fun token _ => ?_
  cases isExempt U token narrative.toList <;> simp

/-- The gate passes when no number is unsupported. -/
theorem runAllGates_ok_iff {narrative : String} {dataset : GateDataset} :
    (∃ gates, runAllGates U narrative dataset = .ok gates) ↔
      ∀ token ∈ claimedNumbers U narrative, occursIn dataset.text token = true ∨
        isDerived U (computeDeterministicDerivations dataset) token = true := by
  rw [← verify_eq_none_iff, runAllGates]
  cases verifyNarrativeNumericClaims U narrative.toList dataset <;> simp

/-- **The gate of a run** looks for the numbers in the text of the id. -/
theorem gatePasses_iff {narrative : String} {datasetId : Uuid} :
    GatePasses U narrative datasetId ↔ OccurInId U narrative datasetId := by
  rw [GatePasses, runAllGates_ok_iff]
  simp only [isDerived_datasetSummary, Bool.false_eq_true, or_false]
  rfl

/-- Display values denote their cells. -/
theorem DisplaysOnly.denotes {narrative : String} {cells : List DatasetCell}
    (h : DisplaysOnly U narrative cells) :
    ∀ token ∈ claimedNumbers U narrative, Denotes U cells token := by
  intro token htoken
  obtain ⟨c, hc, htext⟩ := h token (List.mem_of_mem_filter htoken)
  exact .inl ⟨c, hc, .inr htext⟩

/-! ### Plain conditions

What the gate does on most narratives can be told without looking at the id: a number with a
decimal point occurs in no id, so a narrative that prints one is refused. This is right if the
number is no display value, and wrong if it is one.
-/

variable {narrative : String} {datasetId : Uuid} {cells : List DatasetCell} {token : List Char}

/-- An id has no decimal point, nor has the text around it. -/
theorem occursIn_of_point (hpoint : '.' ∈ token) :
    occursIn (datasetSummary datasetId).text token = false := by
  have hnone : '.' ∉ (datasetSummary datasetId).text.toList := by
    simp only [datasetSummary, String.toList_append, List.mem_append, not_or]
    exact ⟨⟨by decide, fun h => (uuidText_plain datasetId _ h).1 rfl⟩, by decide⟩
  have hkept : '.' ∈ token.filter fun c => c != ',' && c != '%' :=
    List.mem_filter.mpr ⟨hpoint, by decide⟩
  rw [occursIn, Bool.or_eq_false_iff]
  constructor
  · exact Bool.eq_false_iff.mpr fun h => hnone ((isPartOf_iff.mp h).subset hkept)
  · exact Bool.eq_false_iff.mpr fun h => hnone ((isPartOf_iff.mp h).subset hpoint)

/-- A narrative without numbers passes, as it should. -/
theorem gateExact_of_noNumbers (hnone : extractNumbersFromText U narrative.toList = []) :
    GateExact U narrative datasetId cells := by
  have hclaimed : claimedNumbers U narrative = [] := by rw [claimedNumbers, hnone, List.filter_nil]
  refine ⟨fun _ token htoken => ?_, fun _ => gatePasses_iff.mpr fun token htoken => ?_⟩
  · rw [hclaimed] at htoken
    cases htoken
  · rw [hclaimed] at htoken
    cases htoken

/-- A decimal number that is no display value is refused, as it should be. -/
theorem gateExact_of_point (htoken : token ∈ claimedNumbers U narrative) (hpoint : '.' ∈ token)
    (hforeign : ∀ c ∈ cells, token ≠ c.displayValue.toList) :
    GateExact U narrative datasetId cells := by
  refine ⟨fun hpass => ?_, fun hdisplay => ?_⟩
  · have hoccurs := gatePasses_iff.mp hpass token htoken
    rw [occursIn_of_point hpoint] at hoccurs
    cases hoccurs
  · obtain ⟨c, hc, heq⟩ := hdisplay token (List.mem_of_mem_filter htoken)
    exact absurd heq (hforeign c hc)

/-- A narrative of display values is refused as soon as one of them has a decimal point. -/
theorem not_gateExact_of_point (htoken : token ∈ claimedNumbers U narrative) (hpoint : '.' ∈ token)
    (hdisplay : DisplaysOnly U narrative cells) : ¬ GateExact U narrative datasetId cells := by
  intro hexact
  have hoccurs := gatePasses_iff.mp (hexact.complete hdisplay) token htoken
  rw [occursIn_of_point hpoint] at hoccurs
  cases hoccurs

end Meaning

/-! ## Runs -/

/-- A snapshot of the engine has a narrative that passed the gate. -/
theorem snapshot_gatePasses {cfg : EngineConfig} {now : ℕ} {s : AnalysisSys}
    (h : AnalysisReachable cfg now s) {j : Uuid} {r : JobRows} (hr : s.db.rows j = some r) :
    ∀ id narrative datasetId, .engine id narrative datasetId ∈ r.snapshots →
      GatePasses cfg.chars narrative datasetId := by
  refine rows_invariant (P := fun _ r => ∀ id narrative datasetId,
    FinalResultSnapshot.engine id narrative datasetId ∈ r.snapshots →
      GatePasses cfg.chars narrative datasetId) (fun j job _ id narrative datasetId hmem => ?_)
    (fun {s a pr j r r'} _ _ _ _ hstep ih id narrative datasetId hmem => ?_) h j r hr
  · cases hmem
  · rcases hstep.snapshots with
      hsame | ⟨-, ⟨id', narrative', datasetId', hpass, -, hnew⟩ | ⟨id', summary, hnew⟩⟩
    · exact ih id narrative datasetId (hsame ▸ hmem)
    · rw [hnew, List.mem_singleton] at hmem
      cases hmem
      exact hpass
    · rw [hnew, List.mem_singleton] at hmem
      cases hmem

/-- **The numeric gate**. The narrative of every snapshot of a run passed it, and
it does what it is for exactly when the id's text happens to decide as the
dataset does: the numbers are display values and occur there, or they are not
all display values and one does not occur there or all of them denote. -/
theorem numericGate_exact_iff (cfg : EngineConfig) :
    (∀ now s j r id narrative datasetId, AnalysisReachable cfg now s → s.db.rows j = some r →
      .engine id narrative datasetId ∈ r.snapshots → GatePasses cfg.chars narrative datasetId) ∧
    ∀ narrative datasetId cells, GateExact cfg.chars narrative datasetId cells ↔
      DisplaysOnly cfg.chars narrative cells ∧ OccurInId cfg.chars narrative datasetId ∨
        ¬ DisplaysOnly cfg.chars narrative cells ∧ (¬ OccurInId cfg.chars narrative datasetId ∨
          ∀ token ∈ claimedNumbers cfg.chars narrative, Denotes cfg.chars cells token) := by
  refine ⟨fun now s j r id narrative datasetId h hr =>
    snapshot_gatePasses h hr id narrative datasetId, fun narrative datasetId cells => ⟨fun h => ?_, fun h => ?_⟩⟩
  · have hsound := h.sound
    have hcomplete := h.complete
    rw [gatePasses_iff] at hsound hcomplete
    by_cases hdisplay : DisplaysOnly cfg.chars narrative cells
    · exact .inl ⟨hdisplay, hcomplete hdisplay⟩
    · by_cases hoccur : OccurInId cfg.chars narrative datasetId
      · exact .inr ⟨hdisplay, .inr (hsound hoccur)⟩
      · exact .inr ⟨hdisplay, .inl hoccur⟩
  · rcases h with ⟨hdisplay, hoccur⟩ | ⟨hdisplay, hoccur | hdenote⟩
    · exact ⟨fun _ => hdisplay.denotes, fun _ => gatePasses_iff.mpr hoccur⟩
    · exact ⟨fun hpass => absurd (gatePasses_iff.mp hpass) hoccur, fun h => absurd h hdisplay⟩
    · exact ⟨fun _ => hdenote, fun h => absurd h hdisplay⟩

/-- A number of the id's digits passes in a run though the dataset has no such
value, and the one value of the dataset does not pass. -/
theorem numericGate_not_exact :
    (¬ ∀ (cfg : EngineConfig) (now : ℕ) (s : AnalysisSys) (j : Uuid) (r : JobRows) (id : Uuid)
        (narrative : String) (datasetId : Uuid) (cells : List DatasetCell),
      AnalysisReachable cfg now s → s.db.rows j = some r →
        .engine id narrative datasetId ∈ r.snapshots →
          ∀ token ∈ claimedNumbers cfg.chars narrative, Denotes cfg.chars cells token) ∧
    ¬ ∀ (U : CharClass) (narrative : String) (datasetId : Uuid) (cells : List DatasetCell),
      DisplaysOnly U narrative cells → GatePasses U narrative datasetId := by
  refine ⟨fun hsound => ?_, fun hcomplete => ?_⟩
  · have hrun : (((analysisModel ⟨.ascii⟩).run
        (Model.serve 0 (.createAnalysis 5 "Akbank 2025-Q4 toplam aktifler" none []) 5 { uuid := 7 } ++
          Model.serve 1 (.runOnce "w") 62
            { uuid := 9
              normalization := assetsUnderstood
              contentText := some "Toplam 4711 TL"
              tool := { result := some ⟨some 0x4711⟩ } })
        (Model.idle (emptyAnalysisDb 100))).bind fun s => (s.db.rows 7).map fun r =>
          r.snapshots) = some [.engine 9 "Toplam 4711 TL" 0x4711] := by
      decide +kernel
    obtain ⟨s, hs, hrest⟩ := Option.bind_eq_some_iff.mp hrun
    obtain ⟨r, hr, hsnap⟩ := Option.map_eq_some_iff.mp hrest
    have h : AnalysisReachable ⟨.ascii⟩ 100 s :=
      Model.ReachableBy.later .start (Model.LaterBy.of_runBy (fun _ _ _ => trivial) hs)
    have hdenotes := hsound _ _ s 7 r 9 "Toplam 4711 TL" 0x4711
      [{ canonicalValue := "12.5", displayValue := "12.50" }] h hr (by rw [hsnap]; decide)
      "4711".toList (by decide +kernel)
    revert hdenotes
    decide +kernel
  · have hpass := hcomplete .ascii "12.50" 0x4711
      [{ canonicalValue := "12.5", displayValue := "12.50" }] (by
        simp only [DisplaysOnly]
        decide +kernel)
    rw [gatePasses_iff] at hpass
    revert hpass
    simp only [OccurInId]
    decide +kernel

end FinanceIntelligence
