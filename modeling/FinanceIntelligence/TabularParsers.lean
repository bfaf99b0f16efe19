import FinanceIntelligence.ExtractionRuns

/-!
# Files of cells

`CsvParser.parse` (parsers/csv_parser.py) and `XlsxParser.parse` (parsers/xlsx_parser.py),
after the file was read into rows of texts: the first row of a file or a sheet is one
chunk, and so is every cell of every other row. `extract_candidates` looks for rows in
chunks of tables, which neither parser makes.

* `chunkType_of_mem_parse` — the chunks of the two parsers are headers and cells.
* `reachesReview_iff` — **a file of cells reaches the review** only if it has no figure.
-/

namespace FinanceIntelligence

/-- The limits of the parsers, and their defaults. -/
structure TabularLimits where
  /-- `MAX_XLSX_SHEETS` -/
  maxSheets : ℕ := 50
  /-- `MAX_CSV_ROWS`, `MAX_XLSX_ROWS` -/
  maxRows : ℕ := 100000
  /-- `MAX_CSV_COLS`, `MAX_XLSX_COLS` -/
  maxCols : ℕ := 500
  maxCellLen : ℕ := 32767
  /-- `MAX_EXTRACTED_CHARS` -/
  maxChars : ℕ := 500000

/-- Where the two parsers differ in what they make of a row. -/
structure TabularFormat where
  /-- what stands between the cells of a header -/
  joiner : List Char
  /-- an empty cell is no chunk -/
  skipsEmpty : Bool
  /-- the warning about a cell that is cut off -/
  truncationWarning : String
  /-- the warning about a cell that a spreadsheet would run -/
  formulaWarning : String
  /-- `row_index` of the cells of a row, by its number -/
  rowIndex : ℕ → ℕ
  /-- `column_index` of the warning about a cell that is cut off, by the number of its column -/
  truncationColumn : ℕ → Option ℕ

/-- A row of cells; an empty cell of a sheet is an empty text. -/
abbrev CellRow := List (List Char)

/-- `source_lineage`. -/
structure CellLineage where
  sheetName : Option (List Char)
  /-- `line_number` of a text, the number of the row in its sheet -/
  rowNumber : ℕ
  /-- `row_index` of a cell -/
  rowIndex : Option ℕ
  /-- `column_index`, none for a header -/
  columnIndex : Option ℕ
  columnName : List Char
  truncated : Bool
  /-- `leading_formula_character`, where there is a risk of an injection -/
  leadingFormulaCharacter : Option Char

/-- A chunk of a file of cells. -/
structure CellChunk where
  chunkIndex : ℕ
  chunkType : String
  content : List Char
  /-- `source_lineage` -/
  lineage : CellLineage

/-- A warning, by its code and the place that it is about (`lineage_ref`). -/
structure CellWarning where
  warningCode : String
  sheetName : Option (List Char) := none
  /-- `line_number` or `row_index` -/
  rowNumber : Option ℕ := none
  columnIndex : Option ℕ := none
deriving DecidableEq

/-- The warning about the limit of characters, which is about no place. -/
def characterLimitWarning : CellWarning where
  warningCode := "RESOURCE_LIMIT_EXCEEDED"

/-- How far a parser is. -/
structure ParserState where
  /-- `chunks_output` -/
  chunks : List CellChunk := []
  warnings : List CellWarning := []
  chunkIndex : ℕ := 0
  totalExtractedChars : ℕ := 0

/-- `FORMULA_PREFIXES`. -/
def formulaPrefixes : List Char := ['=', '+', '-', '@', '\t', '\r']

section Parsers

variable (limits : TabularLimits) (format : TabularFormat) (sheetName : Option (List Char))

/-- `joiner.join(row)`. -/
def joinCells (joiner : List Char) : CellRow → List Char
  | [] => []
  | [cell] => cell
  | cell :: row => cell ++ joiner ++ joinCells joiner row

/-- The warnings about a cell. -/
def cellWarnings (rowNumber column : ℕ) (cell : List Char) : List CellWarning :=
  (if limits.maxCellLen < cell.length then
    [⟨format.truncationWarning, sheetName, some rowNumber, format.truncationColumn (column + 1)⟩]
      else []) ++
  if (cell.take limits.maxCellLen).head?.any (formulaPrefixes.contains ·) then
    [⟨format.formulaWarning, sheetName, some rowNumber, some (column + 1)⟩] else []

/-- The chunk of a cell. -/
def cellChunk (headers : CellRow) (rowNumber column chunkIndex : ℕ) (cell : List Char) :
    CellChunk where
  chunkIndex := chunkIndex
  chunkType := "CELL"
  content := cell.take limits.maxCellLen
  lineage :=
    { sheetName := sheetName
      rowNumber := rowNumber
      rowIndex := some (format.rowIndex rowNumber)
      columnIndex := some (column + 1)
      columnName := (headers[column]?).getD ("Column_".toList ++ Nat.toDigits 10 (column + 1))
      truncated := limits.maxCellLen < cell.length
      leadingFormulaCharacter :=
        (cell.take limits.maxCellLen).head?.filter (formulaPrefixes.contains ·) }

/-- The cells of a row, until the limit of characters is met. -/
def readCells (headers : CellRow) (rowNumber : ℕ) : ℕ → CellRow → ParserState → ParserState
  | _, [], s => s
  | column, cell :: cells, s =>
    if format.skipsEmpty = true ∧ cell = [] then readCells headers rowNumber (column + 1) cells s
    else
      let s : ParserState := {
        chunks := s.chunks ++
          [cellChunk limits format sheetName headers rowNumber column (s.chunkIndex + 1) cell]
        warnings := s.warnings ++ cellWarnings limits format sheetName rowNumber column cell
        chunkIndex := s.chunkIndex + 1
        totalExtractedChars := s.totalExtractedChars + (cell.take limits.maxCellLen).length }
      if limits.maxChars < s.totalExtractedChars then
        { s with warnings := s.warnings ++ [characterLimitWarning] }
      else readCells headers rowNumber (column + 1) cells s

/-- The chunk of a header. -/
def headerChunk (rowNumber chunkIndex : ℕ) (row : CellRow) : CellChunk where
  chunkIndex := chunkIndex
  chunkType := "HEADER"
  content := joinCells format.joiner row
  lineage := ⟨sheetName, rowNumber, none, none, [], false, none⟩

/-- The rows after the first ones, until there are too many or one is too long. -/
def readRows : ℕ → CellRow → List CellRow → ParserState → ParserState
  | _, _, [], s => s
  | before, headers, row :: rows, s =>
    let rowNumber := before + 1
    if limits.maxRows < rowNumber ∨ limits.maxCols < row.length then
      { s with warnings := s.warnings ++
          [⟨"RESOURCE_LIMIT_EXCEEDED", sheetName, some rowNumber, none⟩] }
    else if rowNumber = 1 then
      readRows rowNumber row rows { s with
        chunks := s.chunks ++ [headerChunk format sheetName rowNumber (s.chunkIndex + 1) row]
        chunkIndex := s.chunkIndex + 1
        totalExtractedChars := s.totalExtractedChars + (joinCells format.joiner row).length }
    else
      readRows rowNumber headers rows (readCells limits format sheetName headers rowNumber 0 row s)

end Parsers

/-- A text of cells, or a workbook: what the readers of the two formats make of a file. -/
inductive TabularFile where
  /-- the rows of a text and the delimiter that was sniffed -/
  | csv (delimiter : Char) (rows : List CellRow)
  /-- the sheets of a workbook with their rows -/
  | xlsx (sheets : List (List Char × List CellRow))

namespace TabularFile

/-- The format of a text. -/
def csvFormat (delimiter : Char) : TabularFormat :=
  ⟨[delimiter], false, "CSV_CELL_TRUNCATED", "CSV_FORMULA_INJECTION_RISK", (· - 1), some⟩

/-- The format of a workbook. -/
def xlsxFormat : TabularFormat :=
  ⟨" | ".toList, true, "RESOURCE_LIMIT_EXCEEDED", "XLSX_FORMULA_INJECTION_RISK", id, fun _ => none⟩

/-- The sheets of a workbook, until there are too many. -/
def readSheets (limits : TabularLimits) :
    ℕ → List (List Char × List CellRow) → ParserState → ParserState
  | _, [], s => s
  | before, (name, rows) :: sheets, s =>
    if limits.maxSheets < before + 1 then
      { s with warnings := s.warnings ++ [⟨"RESOURCE_LIMIT_EXCEEDED", some name, none, none⟩] }
    else readSheets limits (before + 1) sheets
      (readRows limits xlsxFormat (some name) 0 [] rows s)

/-- The loops of `CsvParser.parse` and `XlsxParser.parse`. -/
def parse (limits : TabularLimits) : TabularFile → ParserState
  | .csv delimiter rows => readRows limits (csvFormat delimiter) none 0 [] rows {}
  | .xlsx sheets => readSheets limits 0 sheets {}

/-- The rows of a file after its headers. -/
def dataRows : TabularFile → List CellRow
  | .csv _ rows => rows.tail
  | .xlsx sheets => sheets.flatMap fun sheet => sheet.2.tail

/-! ## Headers and cells -/

section Kinds

variable {limits : TabularLimits} {format : TabularFormat} {sheetName : Option (List Char)}

/-- The chunks so far are headers and cells. -/
def HeadersAndCells (s : ParserState) : Prop :=
  ∀ chunk ∈ s.chunks, chunk.chunkType = "HEADER" ∨ chunk.chunkType = "CELL"

theorem HeadersAndCells.append {s s' : ParserState} {chunk : CellChunk} (hs : HeadersAndCells s)
    (hchunk : chunk.chunkType = "HEADER" ∨ chunk.chunkType = "CELL")
    (h : s'.chunks = s.chunks ++ [chunk]) : HeadersAndCells s' := by
  intro other hother
  rw [h] at hother
  rcases List.mem_append.mp hother with hother | hother
  · exact hs other hother
  · exact List.mem_singleton.mp hother ▸ hchunk

theorem readCells_headersAndCells {headers : CellRow} {rowNumber : ℕ} {cells : CellRow}
    {column : ℕ} {s : ParserState} (hs : HeadersAndCells s) :
    HeadersAndCells (readCells limits format sheetName headers rowNumber column cells s) := by
  induction cells generalizing column s with
  | nil => exact hs
  | cons cell cells ih =>
    rw [readCells]
    split
    · exact ih hs
    · dsimp only
      split
      · exact hs.append (.inr rfl) rfl
      · exact ih (hs.append (.inr rfl) rfl)

theorem readRows_headersAndCells {headers : CellRow} {before : ℕ} {rows : List CellRow}
    {s : ParserState} (hs : HeadersAndCells s) :
    HeadersAndCells (readRows limits format sheetName before headers rows s) := by
  induction rows generalizing before headers s with
  | nil => exact hs
  | cons row rows ih =>
    rw [readRows]
    split
    · exact hs
    · split
      · exact ih (hs.append (.inl rfl) rfl)
      · exact ih (readCells_headersAndCells hs)

theorem readSheets_headersAndCells {sheets : List (List Char × List CellRow)} {before : ℕ}
    {s : ParserState} (hs : HeadersAndCells s) :
    HeadersAndCells (readSheets limits before sheets s) := by
  induction sheets generalizing before s with
  | nil => exact hs
  | cons sheet sheets ih =>
    obtain ⟨name, rows⟩ := sheet
    rw [readSheets]
    split
    · exact hs
    · exact ih (readRows_headersAndCells hs)

/-- **The chunks of the two parsers** are headers and cells. -/
theorem parse_headersAndCells (file : TabularFile) : HeadersAndCells (file.parse limits) := by
  cases file with
  | csv delimiter rows => exact readRows_headersAndCells nofun
  | xlsx sheets => exact readSheets_headersAndCells nofun

end Kinds

end TabularFile

namespace FactExtractionService

variable {R : ReaderText} {filing : Filing} {limits : TabularLimits} {dumps : CellLineage → List Char}
  {file : TabularFile} {before : List CandidateRow}

/-- The chunks of a file of cells as the extraction gets them; `dumps` prints a lineage. -/
def tabularChunks (limits : TabularLimits) (dumps : CellLineage → List Char) (file : TabularFile) :
    List Chunk :=
  (file.parse limits).chunks.map fun chunk =>
    ⟨chunk.chunkType, chunk.content, fun _ => dumps chunk.lineage⟩

/-- Without a model, chunks that are no tables leave nothing. -/
theorem extractCandidates_of_no_table {chunks : List Chunk}
    (h : ∀ chunk ∈ chunks, chunk.chunkType ≠ "TABLE") :
    ∃ summary, extractCandidates R filing none chunks before = .ok (summary, before) ∧
      summary.candidatesCreated = 0 := by
  rw [extractCandidates]
  split
  · exact ⟨_, rfl, rfl⟩
  · rename_i institutionId periodId hrefs
    have hread : readTables R filing (parseDocumentContext R.chars.toCharClass R.letters
        filing.displayName) institutionId periodId chunks before = .ok { rows := before } := by
      rw [readTables]
      generalize ({ rows := before } : Progress) = s
      induction chunks generalizing s with
      | nil => rfl
      | cons chunk chunks ih =>
        refine foldlM_cons_eq_ok.mpr ⟨s, if_pos (.inr (h chunk (List.mem_cons_self ..))), ?_⟩
        exact ih (fun c hc => h c (List.mem_cons_of_mem _ hc)) s
    rw [hread]
    exact ⟨_, rfl, rfl⟩

/-- A label is the code or the name of a metric, up to case and the blanks around it. -/
def NamesMetric (R : ReaderText) (d : Dictionary) (label : List Char) (m : MetricRow) : Prop :=
  d.lower (strip R.chars.toCharClass label) = d.lower m.metricCode.toList ∨
    d.lower (strip R.chars.toCharClass label) = d.lower m.canonicalName

/-- A row of a file that says a figure: a label that names exactly one metric, and a number. -/
def SaysFigure (R : ReaderText) (d : Dictionary) (label value : List Char) : Prop :=
  (∃ m ∈ d.metrics, NamesMetric R d label m ∧ ∀ m' ∈ d.metrics, NamesMetric R d label m' → m' = m) ∧
    ∃ v p w, NormalizationService.parseFinancialDecimal R.chars.toCharClass R.letters
      (strip R.chars.toCharClass value) none = .ok ⟨some v, p, w⟩

/-- The figures of a file, if its name says an institution and a period that are known. -/
def FigureOf (R : ReaderText) (filing : Filing) (file : TabularFile) (label value : List Char) :
    Prop :=
  (referencesOf filing (parseDocumentContext R.chars.toCharClass R.letters
      filing.displayName)).isSome = true ∧
    (∃ rest, (label :: value :: rest) ∈ file.dataRows) ∧ SaysFigure R filing.dictionary label value

/-- **The file reaches the review**: its extraction without a model adds a candidate for
every figure, as long as there are not too many. -/
def ReachesReview (R : ReaderText) (filing : Filing) (limits : TabularLimits)
    (dumps : CellLineage → List Char) (file : TabularFile) (before : List CandidateRow) : Prop :=
  ∃ summary added, extractCandidates R filing none (tabularChunks limits dumps file) before =
      .ok (summary, before ++ added) ∧
    (added.length < maxCandidatesPerVersion → ∀ label value, FigureOf R filing file label value →
      ∃ row ∈ added, row.rawLabel = strip R.chars.toCharClass label ∧
        row.rawValue = strip R.chars.toCharClass value)

/-- The chunks of a file of cells are no tables. -/
theorem tabularChunks_no_table :
    ∀ chunk ∈ tabularChunks limits dumps file, chunk.chunkType ≠ "TABLE" := by
  intro chunk hchunk
  obtain ⟨c, hc, rfl⟩ := List.mem_map.mp hchunk
  change c.chunkType ≠ "TABLE"
  rcases TabularFile.parse_headersAndCells file c hc with h | h
  · rw [h]
    decide
  · rw [h]
    decide

/-- A figure of a file that reaches the review would be in a candidate that nobody makes. -/
theorem ReachesReview.not_figureOf (h : ReachesReview R filing limits dumps file before)
    (label value : List Char) : ¬ FigureOf R filing file label value := by
  intro hfigure
  obtain ⟨summary, added, hrun, hadded⟩ := h
  obtain ⟨summary', hrun', -⟩ : ∃ summary', extractCandidates R filing none
      (tabularChunks limits dumps file) before = .ok (summary', before) ∧
      summary'.candidatesCreated = 0 := extractCandidates_of_no_table tabularChunks_no_table
  have hsame := (Prod.mk.inj (Except.ok.inj (hrun'.symm.trans hrun))).2
  obtain rfl := List.self_eq_append_right.mp hsame
  obtain ⟨row, hrow, -⟩ := hadded (by decide) label value hfigure
  cases hrow

/-- **A file of cells reaches the review** only if it has no figure. -/
theorem reachesReview_iff (R : ReaderText) (filing : Filing) (limits : TabularLimits)
    (dumps : CellLineage → List Char) (file : TabularFile) (before : List CandidateRow) :
    ReachesReview R filing limits dumps file before ↔
      ∀ label value, ¬ FigureOf R filing file label value := by
  refine ⟨ReachesReview.not_figureOf, fun hnone => ?_⟩
  obtain ⟨summary, hrun, -⟩ : ∃ summary, extractCandidates R filing none
      (tabularChunks limits dumps file) before = .ok (summary, before) ∧
      summary.candidatesCreated = 0 := extractCandidates_of_no_table tabularChunks_no_table
  exact ⟨summary, [], by rw [List.append_nil]; exact hrun, fun _ label value hfigure =>
    absurd hfigure (hnone label value)⟩

/-- A text with a header and one figure. -/
def profitFile : TabularFile :=
  .csv ';' [["Metric".toList, "Value".toList], ["Net Profit".toList, "5".toList]]

/-- The figure of a text makes no candidate, the same row of a table does. -/
theorem not_reachesReview_profitFile :
    ¬ ReachesReview .ascii vakbnFiling {} (fun _ => "{}".toList) profitFile [] ∧
      (extractCandidates .ascii vakbnFiling none
        [⟨"TABLE", "Net Profit|5".toList, fun _ => []⟩] []).toOption.map (fun x =>
          x.2.map fun row => (row.rawLabel, row.rawValue)) =
        some [("Net Profit".toList, "5".toList)] := by
  refine ⟨fun h => ?_, by decide +kernel⟩
  have hparse : NormalizationService.parseFinancialDecimal .ascii .ascii "5".toList none =
      .ok ⟨some (.finite 5), false, []⟩ := by decide +kernel
  have hvalue : strip .ascii "5".toList = "5".toList := by decide +kernel
  refine h.not_figureOf "Net Profit".toList "5".toList
    ⟨by decide +kernel, ⟨[], by simp [profitFile, TabularFile.dataRows]⟩, ?_, ?_⟩
  · refine ⟨⟨⟨1, "NET_PROFIT"⟩, "Net Profit".toList, true⟩, by simp [vakbnFiling, twoMetrics],
      .inr (by decide +kernel), fun m' hm' hnames => ?_⟩
    simp only [vakbnFiling, twoMetrics, List.mem_cons, List.not_mem_nil, or_false] at hm'
    rcases hm' with rfl | rfl
    · rfl
    · rcases hnames with hnames | hnames
      · exact absurd hnames (by decide +kernel)
      · exact absurd hnames (by decide +kernel)
  · exact ⟨.finite 5, false, [], hvalue ▸ hparse⟩

end FactExtractionService

end FinanceIntelligence
