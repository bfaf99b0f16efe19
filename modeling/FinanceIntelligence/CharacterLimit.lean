import FinanceIntelligence.TabularParsers
import FinanceIntelligence.LimitedReading

/-!
# The limit of characters

`CsvParser.parse` and `XlsxParser.parse` test `MAX_EXTRACTED_CHARS` behind every cell and break
out of the row that the cell is in. The next row is read all the same: it adds a chunk, passes
the limit again and adds another warning. (`PdfParser.parse` sets `stop_reading` in this place
and leaves both of its loops.)

* `parse_adds` — what a parser makes of a file: the **contents** it reads, row by row until the
  limit, and a **warning** for every cell with which the total passes the limit;
* `stopsAtLimit_iff` — the limit holds for the **whole file** exactly if nothing stands behind
  the first row that passes it, and the headers, which are not tested, are short enough;
* `headersFit_csv` — of a text only the first of the two can fail;
* `not_stopsAtLimit_longRow` — a row behind a long one is **read**.
-/

namespace FinanceIntelligence

open LimitedReading

/-- A chunk by its length. -/
def CellChunk.toContent (chunk : CellChunk) : Content where
  isCell := chunk.chunkType == "CELL"
  length := chunk.content.length

/-- The chunks by their lengths. -/
def ParserState.contents (s : ParserState) : List Content := s.chunks.map CellChunk.toContent

/-- How often a parser has warned about the limit of characters. -/
def ParserState.limitWarnings (s : ParserState) : ℕ := s.warnings.count characterLimitWarning

section Contents

variable (limits : TabularLimits) (format : TabularFormat)

/-- A header by its length. -/
def headerContent (row : CellRow) : Content := ⟨false, (joinCells format.joiner row).length⟩

/-- A cell by its length, cut off. -/
def cellContent (cell : List Char) : Content := ⟨true, (cell.take limits.maxCellLen).length⟩

/-- The cells of a row, as far as they are chunks, by their lengths. -/
def cellContents (row : CellRow) : List Content :=
  (row.filter fun cell => !(format.skipsEmpty && cell.isEmpty)).map (cellContent limits)

/-- The rows of a text or of a sheet, as many as the limits of rows and columns let through. -/
def rowContents : ℕ → List CellRow → List (List Content)
  | _, [] => []
  | before, row :: rows =>
    if limits.maxRows < before + 1 ∨ limits.maxCols < row.length then []
    else (if before + 1 = 1 then [headerContent format row] else cellContents limits format row) ::
      rowContents (before + 1) rows

end Contents

/-- The rows of a file, whatever their characters add up to. -/
def TabularFile.contents (limits : TabularLimits) : TabularFile → List (List Content)
  | .csv delimiter rows => rowContents limits (csvFormat delimiter) 0 rows
  | .xlsx sheets =>
    (sheets.take limits.maxSheets).flatMap fun sheet => rowContents limits xlsxFormat 0 sheet.2

/-! ## What the parsers read -/

variable {limits : TabularLimits} {format : TabularFormat} {sheetName : Option (List Char)}

/-- From one state to another, these contents are read. -/
structure Adds (limit : ℕ) (s s' : ParserState) (read : List Content) : Prop where
  /-- they are the new chunks -/
  contents : s'.contents = s.contents ++ read
  /-- the total counts their characters -/
  total : s'.totalExtractedChars = s.totalExtractedChars + totalLength read
  /-- there is a new warning for every cell that passes the limit -/
  warnings : s'.limitWarnings = s.limitWarnings + overrunCount limit s.totalExtractedChars read

namespace Adds

variable {limit : ℕ} {s s' s'' : ParserState} {read read' : List Content}

theorem refl (limit : ℕ) (s : ParserState) : Adds limit s s [] :=
  ⟨(List.append_nil _).symm, rfl, rfl⟩

theorem trans (h : Adds limit s s' read) (h' : Adds limit s' s'' read') :
    Adds limit s s'' (read ++ read') where
  contents := by rw [h'.contents, h.contents, List.append_assoc]
  total := by rw [h'.total, h.total, totalLength_append, Nat.add_assoc]
  warnings := by rw [h'.warnings, h.warnings, h.total, overrunCount_append, Nat.add_assoc]

/-- A warning about something else leaves everything. -/
theorem warn (limit : ℕ) (s : ParserState) {warning : CellWarning}
    (h : warning ≠ characterLimitWarning) :
    Adds limit s { s with warnings := s.warnings ++ [warning] } [] where
  contents := (List.append_nil _).symm
  total := rfl
  warnings := by
    simp only [ParserState.limitWarnings, List.count_append, List.count_singleton, overrunCount]
    rw [if_neg (by simpa using h)]

end Adds

/-- The warnings about a cell are about its place. -/
theorem count_cellWarnings {rowNumber column : ℕ} {cell : List Char} :
    (cellWarnings limits format sheetName rowNumber column cell).count
      characterLimitWarning = 0 := by
  rw [List.count_eq_zero, cellWarnings]
  intro hmem
  rcases List.mem_append.mp hmem with hmem | hmem
  · split at hmem
    · exact absurd (List.mem_singleton.mp hmem) (by simp [characterLimitWarning])
    · cases hmem
  · split at hmem
    · exact absurd (List.mem_singleton.mp hmem) (by simp [characterLimitWarning])
    · cases hmem

/-- One more cell, with a warning about the limit exactly if it passes it. -/
theorem cell_adds {s : ParserState} {headers : CellRow} {rowNumber column : ℕ} {cell : List Char}
    {warnings : List CellWarning} (h : warnings.count characterLimitWarning =
      if overruns limits.maxChars s.totalExtractedChars (cellContent limits cell) then 1 else 0) :
    Adds limits.maxChars s
      { chunks := s.chunks ++
          [cellChunk limits format sheetName headers rowNumber column (s.chunkIndex + 1) cell]
        warnings := s.warnings ++ warnings
        chunkIndex := s.chunkIndex + 1
        totalExtractedChars := s.totalExtractedChars + (cell.take limits.maxCellLen).length }
      [cellContent limits cell] where
  contents := by simp [ParserState.contents, CellChunk.toContent, cellChunk, cellContent]
  total := rfl
  warnings := by
    rw [overrunCount, ← h]
    exact List.count_append

/-- The cells of a row are read until the limit. -/
theorem readCells_adds {headers : CellRow} {rowNumber : ℕ} {cells : CellRow} {column : ℕ}
    {s : ParserState} :
    Adds limits.maxChars s (readCells limits format sheetName headers rowNumber column cells s)
      (untilLimit limits.maxChars s.totalExtractedChars (cellContents limits format cells)) := by
  induction cells generalizing column s with
  | nil => exact .refl _ s
  | cons cell cells ih =>
    rw [readCells]
    by_cases hskip : format.skipsEmpty = true ∧ cell = []
    · -- an empty cell of a sheet
      have hcontents : cellContents limits format (cell :: cells) =
          cellContents limits format cells := by
        simp [cellContents, hskip.1, hskip.2]
      rw [if_pos hskip, hcontents]
      exact ih
    · have hkept : (!(format.skipsEmpty && cell.isEmpty)) = true := by
        rw [Bool.not_eq_true', ← Bool.not_eq_true]
        simpa only [Bool.and_eq_true, List.isEmpty_iff] using hskip
      have hcontents : cellContents limits format (cell :: cells) =
          cellContent limits cell :: cellContents limits format cells := by
        rw [cellContents, List.filter_cons_of_pos (by exact hkept)]
        rfl
      rw [if_neg hskip, hcontents, untilLimit]
      dsimp only
      by_cases hover : limits.maxChars <
          s.totalExtractedChars + (cell.take limits.maxCellLen).length
      · have hover' : overruns limits.maxChars s.totalExtractedChars (cellContent limits cell) =
            true := decide_eq_true hover
        rw [if_pos hover, if_pos hover', List.append_assoc]
        refine cell_adds ?_
        rw [List.count_append, count_cellWarnings, if_pos hover']
        rfl
      · have hover' : overruns limits.maxChars s.totalExtractedChars (cellContent limits cell) =
            false := decide_eq_false hover
        rw [if_neg hover, if_neg (Bool.not_eq_true _ ▸ hover')]
        refine (cell_adds ?_).trans ih
        rw [count_cellWarnings, if_neg (Bool.not_eq_true _ ▸ hover')]

/-- The rows of a text or of a sheet are read one by one, each until the limit. -/
theorem readRows_adds {headers : CellRow} {before : ℕ} {rows : List CellRow} {s : ParserState} :
    Adds limits.maxChars s (readRows limits format sheetName before headers rows s)
      (readAll limits.maxChars s.totalExtractedChars (rowContents limits format before rows)) := by
  induction rows generalizing before headers s with
  | nil => exact .refl _ s
  | cons row rows ih =>
    rw [readRows, rowContents]
    split
    · exact .warn _ s (by simp [characterLimitWarning])
    · split
      · -- a header is not tested
        have hheader : Adds limits.maxChars s { s with
            chunks := s.chunks ++ [headerChunk format sheetName (before + 1) (s.chunkIndex + 1) row]
            chunkIndex := s.chunkIndex + 1
            totalExtractedChars :=
              s.totalExtractedChars + (joinCells format.joiner row).length }
            [headerContent format row] :=
          ⟨by simp [ParserState.contents, CellChunk.toContent, headerChunk, headerContent],
            rfl, rfl⟩
        exact hheader.trans ih
      · have hcells : Adds limits.maxChars s
            (readCells limits format sheetName headers (before + 1) 0 row s)
            (untilLimit limits.maxChars s.totalExtractedChars
              (cellContents limits format row)) := readCells_adds
        rw [readAll, ← hcells.total]
        exact hcells.trans ih

/-- The sheets of a workbook are read one after the other. -/
theorem readSheets_adds {sheets : List (List Char × List CellRow)} {before : ℕ}
    {s : ParserState} :
    Adds limits.maxChars s (TabularFile.readSheets limits before sheets s)
      (readAll limits.maxChars s.totalExtractedChars
        ((sheets.take (limits.maxSheets - before)).flatMap fun sheet =>
          rowContents limits TabularFile.xlsxFormat 0 sheet.2)) := by
  induction sheets generalizing before s with
  | nil =>
    rw [List.take_nil]
    exact .refl _ s
  | cons sheet sheets ih =>
    obtain ⟨name, rows⟩ := sheet
    rw [TabularFile.readSheets]
    split
    · rename_i hmany
      rw [Nat.sub_eq_zero_of_le (by omega), List.take_zero]
      exact .warn _ s (by simp [characterLimitWarning])
    · rename_i hfew
      obtain ⟨n, hn⟩ : ∃ n, limits.maxSheets - before = n + 1 :=
        Nat.exists_eq_succ_of_ne_zero (by omega)
      have hrest : limits.maxSheets - (before + 1) = n := by omega
      have hrows : Adds limits.maxChars s
          (readRows limits TabularFile.xlsxFormat (some name) 0 [] rows s)
          (readAll limits.maxChars s.totalExtractedChars
            (rowContents limits TabularFile.xlsxFormat 0 rows)) := readRows_adds
      rw [hn, List.take_succ_cons, List.flatMap_cons, readAll_append, ← hrows.total]
      exact hrows.trans (hrest ▸ ih)

/-- **What a parser makes of a file.** -/
theorem parse_adds (limits : TabularLimits) (file : TabularFile) :
    Adds limits.maxChars {} (file.parse limits)
      (readAll limits.maxChars 0 (file.contents limits)) := by
  cases file with
  | csv delimiter rows => exact readRows_adds
  | xlsx sheets => exact readSheets_adds

/-! ## The limit of the file -/

/-- **The limit holds for the whole file** that a parser has read. -/
structure StopsAtLimit (limits : TabularLimits) (s : ParserState) : Prop where
  /-- the characters are no more than the limit and one cell or header -/
  total : totalLength s.contents ≤ limits.maxChars + longest s.contents
  /-- behind the cell that the parser warns about there is no chunk -/
  stops : Stops limits.maxChars 0 s.contents
  /-- it warns once at most -/
  once : s.limitWarnings ≤ 1

/-- **The limit holds for the whole file** exactly if nothing stands behind the first row that
passes it, and what is read until then passes it by no more than one cell or header. -/
theorem stopsAtLimit_iff (limits : TabularLimits) (file : TabularFile) :
    StopsAtLimit limits (file.parse limits) ↔
      EndsThere limits.maxChars 0 (file.contents limits) ∧
        HeadersFit limits.maxChars (file.contents limits).flatten := by
  obtain ⟨hcontents, -, hwarnings⟩ := parse_adds limits file
  have hread : (file.parse limits).contents =
      readAll limits.maxChars 0 (file.contents limits) := hcontents
  have hcount : (file.parse limits).limitWarnings =
      overrunCount limits.maxChars 0 (readAll limits.maxChars 0 (file.contents limits)) :=
    hwarnings.trans (Nat.zero_add _)
  constructor
  · rintro ⟨htotal, hstops, -⟩
    have hends : EndsThere limits.maxChars 0 (file.contents limits) :=
      stops_readAll_iff.mp (hread ▸ hstops)
    refine ⟨hends, ?_⟩
    rwa [hread, hends.readAll_eq] at htotal
  · rintro ⟨hends, hfit⟩
    have hstops := stops_readAll_iff.mpr hends
    refine ⟨?_, hread ▸ hstops, hcount ▸ hstops.overrunCount_le_one⟩
    rw [hread, hends.readAll_eq]
    exact hfit

/-- Behind its first row a text has cells only, and no cell is longer than they may be. -/
theorem isCell_of_mem_rowContents {before : ℕ} {rows : List CellRow} (hbefore : 0 < before) :
    ∀ content ∈ (rowContents limits format before rows).flatten,
      content.isCell = true ∧ content.length ≤ limits.maxCellLen := by
  induction rows generalizing before with
  | nil => exact fun content h => absurd h List.not_mem_nil
  | cons row rows ih =>
    intro content h
    rw [rowContents] at h
    split at h
    · cases h
    · rw [if_neg (by omega), List.flatten_cons, List.mem_append] at h
      rcases h with h | h
      · obtain ⟨cell, -, rfl⟩ := List.mem_map.mp h
        exact ⟨rfl, List.length_take_le _ _⟩
      · exact ih (Nat.succ_pos before) content h

/-- **The header of a text** is short enough, as long as no cell can pass the limit alone. -/
theorem headersFit_csv (h : limits.maxCellLen ≤ limits.maxChars) (delimiter : Char)
    (rows : List CellRow) :
    HeadersFit limits.maxChars ((TabularFile.csv delimiter rows).contents limits).flatten := by
  cases rows with
  | nil => exact Nat.zero_le _
  | cons row rows =>
    rw [TabularFile.contents, rowContents]
    split
    · exact Nat.zero_le _
    · exact headersFit_of_cells fun content hcontent =>
        have hcell := isCell_of_mem_rowContents (Nat.succ_pos 0) content hcontent
        ⟨hcell.1, Nat.le_trans hcell.2 h⟩

/-- A row of sixteen cells as long as they may be, and one more row. -/
def longRowFile : TabularFile :=
  .csv ',' [["Tutar".toList], List.replicate 16 (List.replicate 32767 '1'), ["2".toList]]

/-- **The row behind is read**: it has another chunk and another warning. -/
theorem not_stopsAtLimit_longRow :
    (longRowFile.parse {}).limitWarnings = 2 ∧
      ¬ StopsAtLimit {} (longRowFile.parse {}) := by
  have hcontents : longRowFile.contents {} =
      [[⟨false, 5⟩], List.replicate 16 ⟨true, 32767⟩, [⟨true, 1⟩]] := by
    have hrow : cellContents {} (TabularFile.csvFormat ',')
        (List.replicate 16 (List.replicate 32767 '1')) = List.replicate 16 ⟨true, 32767⟩ := by
      have hlong : ∀ cell ∈ List.replicate 16 (List.replicate 32767 '1'),
          (!((TabularFile.csvFormat ',').skipsEmpty && cell.isEmpty)) = true := fun _ _ => rfl
      rw [cellContents, List.filter_eq_self.mpr hlong, List.map_replicate, cellContent,
        List.take_replicate, List.length_replicate]
      rfl
    simp only [longRowFile, TabularFile.contents, rowContents, hrow, List.length_replicate]
    rfl
  have hcount : (longRowFile.parse {}).limitWarnings = 2 := by
    have hwarnings := (parse_adds {} longRowFile).warnings
    rw [hcontents] at hwarnings
    exact hwarnings.trans (by decide)
  exact ⟨hcount, fun h => absurd h.once (by rw [hcount]; decide)⟩

end FinanceIntelligence
