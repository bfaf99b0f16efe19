import FinanceIntelligence.ReviewRuns
import FinanceIntelligence.PyFloat

/-!
# Evidence that is approved and evidence that is used

A row of `candidate_evidence` is validated three times: when the candidate is approved
(`FinancialFactService`), when the fact enters a calculation (`CalculationService`), and when it
is shown in a comparison (`ComparisonService`). The three disagree; `EvidenceNeeds` is what
approved evidence has to have in order to be used.

* `approvedEvidence_usable_iff` — **approved means usable** exactly for such evidence.
-/

namespace FinanceIntelligence

/-- `candidate_evidence`, with what locates a figure. -/
structure EvidenceRow where
  organizationId : Uuid
  candidateId : Uuid
  sourceDocumentVersionId : Uuid
  pageNumber : Option ℤ := none
  sheetName : Option String := none
  cellCoordinate : Option String := none
  rowIndex : Option ℤ := none
  columnIndex : Option ℤ := none
  boundingBox : List (String × Json String PyFloat) := []

/-- What an approval reads of the row. -/
def EvidenceRow.toCandidateEvidence (ev : EvidenceRow) : CandidateEvidence where
  organizationId := ev.organizationId
  candidateId := ev.candidateId
  sourceDocumentVersionId := ev.sourceDocumentVersionId
  pageNumber := ev.pageNumber
  rowIndex := ev.rowIndex
  columnIndex := ev.columnIndex
  boundingBox := ev.boundingBox.map (·.1)

/-- The keys of a rectangle. -/
def boxKeys : List String := ["x0", "y0", "x1", "y1"]

/-- Both indices are there and positive. -/
def EvidenceRow.positiveIndices (ev : EvidenceRow) : Bool :=
  ev.rowIndex.any (0 < ·) && ev.columnIndex.any (0 < ·)

/-! ## Calculations -/

namespace CalculationService

/-- Why evidence keeps a calculation from completing. -/
inductive LineageError where
  | evidenceIncomplete
  | evidenceSourceMismatch
  /-- an `OverflowError` from `float` -/
  | overflow
deriving DecidableEq

variable (U : CharClass)

/-- `not text or not text.strip()`, negated. -/
def hasText (text : Option String) : Bool := text.any fun s => !(strip U s.toList).isEmpty

/-- The rectangle: four floats that are finite and span an area. -/
def boxError (bbox : List (String × Json String PyFloat)) : Option LineageError :=
  let read (key : String) : Except FloatError PyFloat :=
    match bbox.lookup key with
    | some j => PyFloat.ofJson U j
    | none => .error .invalid
  match read "x0", read "y0", read "x1", read "y1" with
  | .ok x0, .ok y0, .ok x1, .ok y1 =>
    match x0.value, y0.value, x1.value, y1.value with
    | some x0, some y0, some x1, some y1 =>
      if x0 < x1 ∧ y0 < y1 then none else some .evidenceIncomplete
    | _, _, _, _ => some .evidenceIncomplete
  -- the first `float(…)` that raises decides
  | .error e, _, _, _ | .ok _, .error e, _, _ | .ok _, .ok _, .error e, _
  | .ok _, .ok _, .ok _, .error e =>
    match e with
    | .invalid => some .evidenceIncomplete
    | .overflow => some .overflow

/-- The MIME types of workbooks. -/
def workbookTypes : List String :=
  ["application/vnd.openxmlformats-officedocument.spreadsheetml.sheet", "application/vnd.ms-excel"]

/-- `doc_ver.detected_mime_type or doc_ver.declared_mime_type`. -/
def mimeOf (docVer : DocumentVersion) : String :=
  if docVer.detectedMimeType ≠ "" then docVer.detectedMimeType else docVer.declaredMimeType

/-- The format-specific part of the lineage validation. -/
def formatError (mime : String) (ev : EvidenceRow) : Option LineageError :=
  if mime = "application/pdf" then
    if ev.pageNumber.all (· ≤ 0) || ev.boundingBox.isEmpty then some .evidenceIncomplete
    else if !(boxKeys.all fun key => (ev.boundingBox.lookup key).isSome) then
      some .evidenceIncomplete
    else boxError U ev.boundingBox
  else if mime ∈ workbookTypes then
    if !hasText U ev.sheetName then some .evidenceIncomplete
    else if !hasText U ev.cellCoordinate && !ev.positiveIndices then some .evidenceIncomplete
    else none
  else if mime = "text/csv" then
    if ev.rowIndex.all (· ≤ 0) then some .evidenceIncomplete
    else if ev.columnIndex.all (· ≤ 0) then some .evidenceIncomplete
    else none
  else none

/-- The lineage validation of one evidence row in `run_calculation`. -/
def lineageError (d : FactDb) (organizationId : Uuid) (ev : EvidenceRow) : Option LineageError :=
  if ev.organizationId ≠ organizationId then some .evidenceSourceMismatch
  else
    match d.documentVersions.find? fun v =>
      v.id == ev.sourceDocumentVersionId && v.organizationId == organizationId with
    | none => some .evidenceSourceMismatch
    | some docVer => formatError U (mimeOf docVer) ev

end CalculationService

/-! ## Comparisons -/

namespace ComparisonService

open FinancialFactService (hasPart)

/-- `_validate_evidence_coordinates`. -/
def validateEvidenceCoordinates (lower : String → String) (ev : EvidenceRow)
    (docVer : Option DocumentVersion) : Bool :=
  let mime := lower ((docVer.map (·.detectedMimeType)).getD "application/pdf")
  if hasPart "pdf" mime then
    if ev.pageNumber.all (· ≤ 0) then false
    else boxKeys.all fun key => (ev.boundingBox.lookup key).any PyFloat.isNumber
  else if hasPart "spreadsheet" mime || hasPart "excel" mime || hasPart "xlsx" mime then
    if ev.sheetName.any (· ≠ "") && ev.cellCoordinate.any (· ≠ "") then true
    else ev.positiveIndices
  else if hasPart "csv" mime || hasPart "text" mime then ev.positiveIndices
  else ev.pageNumber.any (0 < ·) || !ev.boundingBox.isEmpty

end ComparisonService

/-! ## Approved evidence -/

section Approved

open FinancialFactService CalculationService ComparisonService

/-- `str.lower` on ASCII texts. -/
def LowersAscii (lower : String → String) : Prop :=
  ∀ s : String, (s.toList.all fun c => c.toNat < 128) = true →
    lower s = String.ofList (s.toList.map Char.toLower)

/-- What a comparison takes a document for. -/
inductive ComparedFormat where
  | pdf
  | workbook
  | text
  | other
deriving DecidableEq, Repr

/-- What a comparison takes a document of the type for. -/
def comparedFormat (mime : String) : ComparedFormat :=
  if hasPart "pdf" mime then .pdf
  else if hasPart "spreadsheet" mime || hasPart "excel" mime || hasPart "xlsx" mime then .workbook
  else if hasPart "csv" mime || hasPart "text" mime then .text
  else .other

/-- The bounds of the rectangle are numbers. -/
def EvidenceRow.numericBox (ev : EvidenceRow) : Bool :=
  boxKeys.all fun key => (ev.boundingBox.lookup key).any PyFloat.isNumber

/-- The sheet and the cell have names. -/
def EvidenceRow.namedCell (ev : EvidenceRow) : Bool :=
  ev.sheetName.any (· ≠ "") && ev.cellCoordinate.any (· ≠ "")

/-- A bound of the rectangle, where it is one: a finite number, or the text of one. -/
def EvidenceRow.bound (U : CharClass) (ev : EvidenceRow) (key : String) : Option ℚ := do
  let j ← ev.boundingBox.lookup key
  let x ← (PyFloat.ofJson U j).toOption
  x.value

variable (cfg : ReviewConfig) (U : CharClass)

/-- **What approved evidence needs in order to be used**, by the type of its document. -/
structure EvidenceNeeds (docVer : DocumentVersion) (ev : EvidenceRow) : Prop where
  /-- in a PDF file, the rectangle has finite bounds and spans an area -/
  area : mimeOf docVer = "application/pdf" → ∃ x0 y0 x1 y1, ev.bound U "x0" = some x0 ∧
    ev.bound U "y0" = some y0 ∧ ev.bound U "x1" = some x1 ∧ ev.bound U "y1" = some y1 ∧
      x0 < x1 ∧ y0 < y1
  /-- in a workbook, the sheet has a name and the cell a coordinate, or positive indices -/
  cell : mimeOf docVer ∈ workbookTypes → hasText U ev.sheetName = true ∧
    (hasText U ev.cellCoordinate = true ∨ ev.positiveIndices = true)
  /-- in a CSV file, the indices are positive -/
  line : mimeOf docVer = "text/csv" → ev.positiveIndices = true
  /-- the comparison takes it for a PDF file: the bounds are numbers -/
  numbers : comparedFormat (cfg.lower docVer.detectedMimeType) = .pdf → ev.numericBox = true
  /-- for a workbook: the cell is named, or counted from one -/
  named : comparedFormat (cfg.lower docVer.detectedMimeType) = .workbook →
    ev.namedCell = true ∨ ev.positiveIndices = true
  /-- for a text: the indices are positive -/
  counted : comparedFormat (cfg.lower docVer.detectedMimeType) = .text →
    ev.positiveIndices = true
  /-- for something else: there is a page or a rectangle -/
  place : comparedFormat (cfg.lower docVer.detectedMimeType) = .other →
    ev.pageNumber.any (0 < ·) = true ∨ ev.boundingBox ≠ []

variable {cfg U} {docVer : DocumentVersion} {ev : EvidenceRow}

/-- What a comparison accepts, by what it takes the document for. -/
theorem validateEvidenceCoordinates_iff (lower : String → String) :
    validateEvidenceCoordinates lower ev (some docVer) = true ↔
      match comparedFormat (lower docVer.detectedMimeType) with
      | .pdf => ev.pageNumber.all (· ≤ 0) = false ∧ ev.numericBox = true
      | .workbook => ev.namedCell = true ∨ ev.positiveIndices = true
      | .text => ev.positiveIndices = true
      | .other => ev.pageNumber.any (0 < ·) = true ∨ ev.boundingBox ≠ [] := by
  simp only [validateEvidenceCoordinates, comparedFormat, Option.map_some, Option.getD_some]
  split_ifs with hpdf hpage hbook hcell htext <;>
    simp_all [EvidenceRow.numericBox, EvidenceRow.namedCell]

theorem all_nonpos_eq_false {i : Option ℤ} : i.all (· ≤ 0) = false ↔ i.any (0 < ·) = true := by
  cases i <;> simp

/-- What a calculation accepts of a rectangle. -/
theorem boxError_eq_none_iff : boxError U ev.boundingBox = none ↔
    ∃ x0 y0 x1 y1, ev.bound U "x0" = some x0 ∧ ev.bound U "y0" = some y0 ∧
      ev.bound U "x1" = some x1 ∧ ev.bound U "y1" = some y1 ∧ x0 < x1 ∧ y0 < y1 := by
  -- a bound is what the reading of its key gives, where it is finite
  have hbound (key : String) : ev.bound U key =
      (match ev.boundingBox.lookup key with
        | some j => PyFloat.ofJson U j
        | none => .error .invalid).toOption.bind PyFloat.value := by
    rw [EvidenceRow.bound]
    cases ev.boundingBox.lookup key with
    | none => rfl
    | some j => rfl
  simp only [boxError, hbound]
  generalize (match ev.boundingBox.lookup "x0" with
    | some j => PyFloat.ofJson U j
    | none => .error .invalid) = x0
  generalize (match ev.boundingBox.lookup "y0" with
    | some j => PyFloat.ofJson U j
    | none => .error .invalid) = y0
  generalize (match ev.boundingBox.lookup "x1" with
    | some j => PyFloat.ofJson U j
    | none => .error .invalid) = x1
  generalize (match ev.boundingBox.lookup "y1" with
    | some j => PyFloat.ofJson U j
    | none => .error .invalid) = y1
  constructor
  · intro h
    split at h
    · split at h
      · split_ifs at h with hlt
        exact ⟨_, _, _, _, ‹_›, ‹_›, ‹_›, ‹_›, hlt.1, hlt.2⟩
      · cases h
    all_goals split at h <;> cases h
  · rintro ⟨x0', y0', x1', y1', hx0, hy0, hx1, hy1, hx, hy⟩
    cases x0 with
    | error e => cases hx0
    | ok x0 =>
    cases y0 with
    | error e => cases hy0
    | ok y0 =>
    cases x1 with
    | error e => cases hx1
    | ok x1 =>
    cases y1 with
    | error e => cases hy1
    | ok y1 =>
    have hx0 : x0.value = some x0' := hx0
    have hy0 : y0.value = some y0' := hy0
    have hx1 : x1.value = some x1' := hx1
    have hy1 : y1.value = some y1' := hy1
    simp only [hx0, hy0, hx1, hy1, hx, hy, and_self, if_true]

/-- What a calculation accepts, by the type of the document. -/
theorem formatError_eq_none_iff {mime : String} :
    formatError U mime ev = none ↔
      (mime = "application/pdf" → ev.pageNumber.any (0 < ·) = true ∧ ev.boundingBox ≠ [] ∧
        (∀ key ∈ boxKeys, (ev.boundingBox.lookup key).isSome = true) ∧
        boxError U ev.boundingBox = none) ∧
      (mime ∈ workbookTypes → hasText U ev.sheetName = true ∧
        (hasText U ev.cellCoordinate = true ∨ ev.positiveIndices = true)) ∧
      (mime = "text/csv" → ev.positiveIndices = true) := by
  have hcsv : "text/csv" ∉ workbookTypes := by decide
  have hpdf : "application/pdf" ∉ workbookTypes := by decide
  rw [formatError]
  by_cases h₁ : mime = "application/pdf"
  · subst h₁
    simp only [if_true, hpdf, false_imp_iff, true_imp_iff, and_true, ← all_nonpos_eq_false,
      show ¬ "application/pdf" = "text/csv" by decide]
    split_ifs with hpage hkeys
    · refine iff_of_false nofun fun h => ?_
      simp only [Bool.or_eq_true, List.isEmpty_iff] at hpage
      rcases hpage with hpage | hpage
      · rw [h.1] at hpage
        cases hpage
      · exact h.2.1 hpage
    · refine iff_of_false nofun fun h => ?_
      rw [List.all_eq_true.mpr h.2.2.1] at hkeys
      cases hkeys
    · simp only [Bool.or_eq_true, List.isEmpty_iff, not_or, Bool.not_eq_true] at hpage
      simp only [Bool.not_eq_true', Bool.not_eq_false, List.all_eq_true] at hkeys
      exact ⟨fun h => ⟨hpage.1, hpage.2, hkeys, h⟩, fun h => h.2.2.2⟩
  · rw [if_neg h₁]
    by_cases h₂ : mime ∈ workbookTypes
    · have h₃ : mime ≠ "text/csv" := fun h => hcsv (h ▸ h₂)
      simp only [h₁, h₂, h₃, if_true, false_imp_iff, true_imp_iff, and_true, true_and]
      split_ifs with hsheet hcell
      · simp_all
      · simp_all
      · simp only [Bool.and_eq_true, Bool.not_eq_true', not_and, Bool.not_eq_false] at hsheet hcell
        refine iff_of_true rfl ⟨hsheet, ?_⟩
        cases hc : hasText U ev.cellCoordinate with
        | true => exact .inl rfl
        | false => exact .inr (hcell hc)
    · simp only [h₁, h₂, if_false, false_imp_iff, true_and]
      by_cases h₃ : mime = "text/csv"
      · simp only [h₃, if_true, true_imp_iff, EvidenceRow.positiveIndices, Bool.and_eq_true,
          ← all_nonpos_eq_false]
        split_ifs with hrow hcolumn <;> simp_all
      · simp [h₃]

/-- What an approval has checked, by the type of the document. -/
structure ApprovedFormat (cfg : ReviewConfig) (docVer : DocumentVersion) (ev : EvidenceRow) :
    Prop where
  /-- the page of a PDF file -/
  page : hasPart "pdf" (cfg.lower (mimeOf docVer)) = true → ev.pageNumber.any (0 < ·) = true
  /-- and its rectangle -/
  keys : hasPart "pdf" (cfg.lower (mimeOf docVer)) = true →
    ∀ key ∈ boxKeys, (ev.boundingBox.lookup key).isSome = true

theorem isSome_lookup_of_contains {α : Type} {l : List (String × α)} {key : String}
    (h : (l.map (·.1)).contains key = true) : (l.lookup key).isSome = true := by
  induction l with
  | nil => cases h
  | cons x l ih =>
    rw [List.lookup_cons]
    by_cases hx : key = x.1
    · subst hx
      simp
    · have hne : (key == x.1) = false := by simpa using hx
      rw [hne]
      refine ih ?_
      simpa [List.contains_eq_any_beq, hx] using h

/-- An approval leads to a version of the document, and has checked its page and rectangle. -/
theorem approvedFormat_of_approved {d : FactDb} {organizationId : Uuid}
    {candidate : FinancialFactCandidate}
    (h : evidenceError cfg d organizationId candidate ev.toCandidateEvidence = none) :
    ev.organizationId = organizationId ∧ ∃ docVer, (d.documentVersions.find? fun v =>
      v.id == ev.sourceDocumentVersionId && v.organizationId == organizationId) = some docVer ∧
        ApprovedFormat cfg docVer ev := by
  rw [evidenceError] at h
  by_cases horg : ev.toCandidateEvidence.organizationId ≠ organizationId
  · rw [if_pos horg] at h
    cases h
  rw [if_neg horg] at h
  by_cases hversion :
      ev.toCandidateEvidence.sourceDocumentVersionId ≠ candidate.sourceDocumentVersionId
  · rw [if_pos hversion] at h
    cases h
  rw [if_neg hversion] at h
  cases hver : d.documentVersions.find? fun v =>
    v.id == ev.toCandidateEvidence.sourceDocumentVersionId &&
      v.organizationId == organizationId with
  | none =>
    rw [hver] at h
    cases h
  | some docVer =>
    rw [hver] at h
    dsimp only at h
    refine ⟨not_not.mp horg, docVer, hver, ?_⟩
    by_cases hdocument : docVer.documentId ≠ candidate.sourceDocumentId
    · rw [if_pos hdocument] at h
      cases h
    rw [if_neg hdocument] at h
    refine ⟨fun hpdf => ?_, fun hpdf => ?_⟩
    all_goals
      rw [mimeOf] at hpdf
      rw [if_pos hpdf] at h
      by_cases hpage : ev.toCandidateEvidence.pageNumber.all (· < 1) = true
      · rw [if_pos hpage] at h
        cases h
      rw [if_neg hpage] at h
    · change ¬ ev.pageNumber.all (· < 1) = true at hpage
      rw [← all_nonpos_eq_false]
      cases hp : ev.pageNumber with
      | none => simp [hp] at hpage
      | some n =>
        simp only [hp, Option.all_some, decide_eq_true_eq, not_lt] at hpage
        simp only [Option.all_some, decide_eq_false_iff_not]
        omega
    · by_cases hkeys :
          (!(["x0", "y0", "x1", "y1"].all ev.toCandidateEvidence.boundingBox.contains)) = true
      · rw [if_pos hkeys] at h
        cases h
      · simp only [Bool.not_eq_true', Bool.not_eq_false, List.all_eq_true] at hkeys
        exact fun key hkey => isSome_lookup_of_contains (hkeys key hkey)

/-- **Approved means usable** exactly for evidence that has what its document needs. An approval
asks for less than a calculation and a comparison do, so other evidence is approved and then
refused. -/
theorem approvedEvidence_usable_iff (cfg : ReviewConfig) (U : CharClass)
    (hlower : LowersAscii cfg.lower) (d : FactDb) (organizationId : Uuid)
    (candidate : FinancialFactCandidate) (ev : EvidenceRow) (docVer : DocumentVersion)
    (hver : (d.documentVersions.find? fun v =>
      v.id == ev.sourceDocumentVersionId && v.organizationId == organizationId) = some docVer) :
    (evidenceError cfg d organizationId candidate ev.toCandidateEvidence = none →
      lineageError U d organizationId ev = none ∧
        validateEvidenceCoordinates cfg.lower ev (some docVer) = true) ↔
    (evidenceError cfg d organizationId candidate ev.toCandidateEvidence = none →
      EvidenceNeeds cfg U docVer ev) := by
  refine forall_congr' fun happroved => ?_
  obtain ⟨horg, docVer', hver', hformat⟩ := approvedFormat_of_approved happroved
  obtain rfl := Option.some.inj (hver.symm.trans hver')
  have hlineage : lineageError U d organizationId ev = formatError U (mimeOf docVer) ev := by
    rw [lineageError, if_neg (not_not.mpr horg), hver]
  rw [hlineage, formatError_eq_none_iff, validateEvidenceCoordinates_iff]
  -- the lower-case types that the formats go by
  have hpdf : mimeOf docVer = "application/pdf" →
      hasPart "pdf" (cfg.lower (mimeOf docVer)) = true := by
    intro hm
    rw [hm, hlower _ (by decide)]
    decide
  have hdetected : comparedFormat (cfg.lower docVer.detectedMimeType) = .pdf →
      hasPart "pdf" (cfg.lower (mimeOf docVer)) = true := by
    intro hf
    have hpart : hasPart "pdf" (cfg.lower docVer.detectedMimeType) = true := by
      by_contra hno
      rw [comparedFormat, if_neg hno] at hf
      split_ifs at hf
    by_cases hempty : docVer.detectedMimeType = ""
    · rw [hempty, hlower _ (by decide)] at hpart
      exact absurd hpart (by decide)
    · rwa [mimeOf, if_pos hempty]
  constructor
  · rintro ⟨⟨harea, hcell, hline⟩, hcompared⟩
    refine ⟨fun hm => boxError_eq_none_iff.mp (harea hm).2.2.2, hcell, hline, ?_, ?_, ?_, ?_⟩ <;>
      intro hf <;> rw [hf] at hcompared
    · exact hcompared.2
    · exact hcompared
    · exact hcompared
    · exact hcompared
  · intro hneeds
    refine ⟨⟨fun hm => ?_, hneeds.cell, hneeds.line⟩, ?_⟩
    · have hkeys := hformat.keys (hpdf hm)
      refine ⟨hformat.page (hpdf hm), fun hnil => ?_, hkeys,
        boxError_eq_none_iff.mpr (hneeds.area hm)⟩
      have := hkeys "x0" (by decide)
      rw [hnil] at this
      cases this
    · cases hf : comparedFormat (cfg.lower docVer.detectedMimeType) with
      | pdf => exact ⟨all_nonpos_eq_false.mpr (hformat.page (hdetected hf)), hneeds.numbers hf⟩
      | workbook => exact hneeds.named hf
      | text => exact hneeds.counted hf
      | other => exact hneeds.place hf

/-- Texts in lower case, of ASCII texts. -/
def asciiReview : ReviewConfig where
  upper s := String.ofList (s.toList.map Char.toUpper)
  lower s := String.ofList (s.toList.map Char.toLower)
  valueHash _ := ""

theorem asciiReview_lowersAscii : LowersAscii asciiReview.lower := fun _ _ => rfl

/-- A cell of the reported CSV file. -/
def reportedCell (row column : ℤ) : EvidenceRow where
  organizationId := 1
  candidateId := 10
  sourceDocumentVersionId := 6
  rowIndex := some row
  columnIndex := some column

/-- The cell in the second row and column of a CSV file, counted from zero, is used. -/
theorem approvedEvidence_usable_iff_reportedCell :
    evidenceError asciiReview twoReports 1 (reportedCandidate 10 500)
        (reportedCell 1 1).toCandidateEvidence = none ∧
      lineageError CharClass.ascii twoReports 1 (reportedCell 1 1) = none ∧
      validateEvidenceCoordinates asciiReview.lower (reportedCell 1 1)
        (some ⟨6, 1, 5, "text/csv", "text/csv"⟩) = true := by
  have happroved : evidenceError asciiReview twoReports 1 (reportedCandidate 10 500)
      (reportedCell 1 1).toCandidateEvidence = none := by decide
  refine ⟨happroved, (approvedEvidence_usable_iff asciiReview CharClass.ascii
    asciiReview_lowersAscii twoReports 1 (reportedCandidate 10 500) (reportedCell 1 1)
    ⟨6, 1, 5, "text/csv", "text/csv"⟩ (by rfl)).mpr (fun _ => ?_) happroved⟩
  have hformat : comparedFormat (asciiReview.lower "text/csv") = .text := by decide
  exact {
    area := fun h => absurd h (by decide)
    cell := fun h => absurd h (by decide)
    line := fun _ => by decide
    numbers := fun h => by rw [hformat] at h; cases h
    named := fun h => by rw [hformat] at h; cases h
    counted := fun _ => by decide
    place := fun h => by rw [hformat] at h; cases h }

/-- **The first cell of a CSV file** is approved, and neither calculated with nor shown. -/
theorem approvedEvidence_notUsable : ¬ ∀ (cfg : ReviewConfig) (U : CharClass),
    LowersAscii cfg.lower → ∀ (d : FactDb) (organizationId : Uuid)
      (candidate : FinancialFactCandidate) (ev : EvidenceRow) (docVer : DocumentVersion),
      (d.documentVersions.find? fun v =>
        v.id == ev.sourceDocumentVersionId && v.organizationId == organizationId) = some docVer →
      evidenceError cfg d organizationId candidate ev.toCandidateEvidence = none →
        lineageError U d organizationId ev = none ∧
          validateEvidenceCoordinates cfg.lower ev (some docVer) = true := by
  intro h
  have hused := h asciiReview CharClass.ascii asciiReview_lowersAscii twoReports 1
    (reportedCandidate 10 500) (reportedCell 0 0) ⟨6, 1, 5, "text/csv", "text/csv"⟩ (by rfl)
    (by decide)
  exact absurd hused.2 (by decide)

end Approved

end FinanceIntelligence
