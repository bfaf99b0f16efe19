import Mathlib.Data.List.SplitBy
import FinanceIntelligence.TabularParsers

/-!
# The grid of a text

What `CsvParser.parse` (parsers/csv_parser.py) makes of records that stay within its limits. Its
counters are one-based (`line_number`, `column_index`, `chunk_index`) and zero-based (`row_index`);
the place of an approved fact in its file rests on them.

* `DataCell` — a cell with its true **position**; `dataCells` has them in reading order.
* `parse_csv_eq` — the chunks of a text are its header and then **every cell** at its position;
* `rebuild_csvChunks` — the records can be **rebuilt** from the chunks, up to empty ones;
* `csv_lossless` — so the extraction of a text is **lossless** within the limits.
-/

namespace FinanceIntelligence

/-- A cell of a later record. -/
structure DataCell where
  /-- the position of its record, from zero -/
  position : ℕ
  /-- its position in the record, from zero -/
  column : ℕ
  text : List Char

/-- The cells of a record, from a column on. -/
def recordCells (position column : ℕ) (record : CellRow) : List DataCell :=
  (record.zipIdx column).map fun (text, column) => ⟨position, column, text⟩

/-- The cells of the records from a position on, in reading order. -/
def dataCells (position : ℕ) (records : List CellRow) : List DataCell :=
  (records.zipIdx position).flatMap fun (record, position) => recordCells position 0 record

/-- The characters of cells. -/
def cellChars (cells : List DataCell) : ℕ := (cells.map fun cell => cell.text.length).sum

/-- The chunk of a cell that is not cut off, with a text's positions. -/
def DataCell.chunk (headers : CellRow) (chunkIndex : ℕ) (cell : DataCell) : CellChunk where
  chunkIndex := chunkIndex
  chunkType := "CELL"
  content := cell.text
  lineage :=
    { sheetName := none
      rowNumber := cell.position + 1
      rowIndex := some cell.position
      columnIndex := some (cell.column + 1)
      columnName := (headers[cell.column]?).getD
        ("Column_".toList ++ Nat.toDigits 10 (cell.column + 1))
      truncated := false
      leadingFormulaCharacter := cell.text.head?.filter (formulaPrefixes.contains ·) }

/-- The chunks of cells, counted from an index on. -/
def numbered (headers : CellRow) (chunkIndex : ℕ) (cells : List DataCell) : List CellChunk :=
  (cells.zipIdx chunkIndex).map fun (cell, chunkIndex) => cell.chunk headers chunkIndex

/-- The chunks that the records of a text deserve: one for the first record as a whole, and one
for every cell of the later ones. -/
def csvChunks (delimiter : Char) : List CellRow → List CellChunk
  | [] => []
  | headers :: records =>
    { chunkIndex := 1
      chunkType := "HEADER"
      content := joinCells [delimiter] headers
      lineage := ⟨none, 1, none, none, [], false, none⟩ } ::
      numbered headers 2 (dataCells 1 records)

/-- The records stay within the limits of rows, columns, cells and characters. -/
structure WithinLimits (limits : TabularLimits) (delimiter : Char) (records : List CellRow) :
    Prop where
  /-- there are not too many -/
  rows : records.length ≤ limits.maxRows
  /-- none has too many cells -/
  cols : ∀ record ∈ records, record.length ≤ limits.maxCols
  /-- no cell of a later record is too long -/
  cells : ∀ record ∈ records.tail, ∀ cell ∈ record, cell.length ≤ limits.maxCellLen
  /-- all that is extracted is not too long -/
  chars : (joinCells [delimiter] (records.headD [])).length +
    cellChars (dataCells 1 records.tail) ≤ limits.maxChars

/-! ## Reading -/

section Reading

variable {limits : TabularLimits} {delimiter : Char} {headers : CellRow} {position column : ℕ}
  {record : CellRow} {records : List CellRow}

theorem dataCells_cons :
    dataCells position (record :: records) =
      recordCells position 0 record ++ dataCells (position + 1) records := rfl

@[simp] theorem cellChars_append (cells cells' : List DataCell) :
    cellChars (cells ++ cells') = cellChars cells + cellChars cells' := by
  simp [cellChars]

theorem numbered_append (index : ℕ) (cells cells' : List DataCell) :
    numbered headers index (cells ++ cells') =
      numbered headers index cells ++ numbered headers (index + cells.length) cells' := by
  simp [numbered, List.zipIdx_append]

/-- From one state to another, these cells are read and nothing else. -/
structure ReadsCells (headers : CellRow) (s s' : ParserState) (cells : List DataCell) : Prop where
  /-- their chunks are the new ones -/
  chunks : s'.chunks = s.chunks ++ numbered headers (s.chunkIndex + 1) cells
  /-- they are counted -/
  chunkIndex : s'.chunkIndex = s.chunkIndex + cells.length
  /-- and so are their characters -/
  total : s'.totalExtractedChars = s.totalExtractedChars + cellChars cells

theorem ReadsCells.refl (headers : CellRow) (s : ParserState) : ReadsCells headers s s [] :=
  ⟨(List.append_nil _).symm, rfl, rfl⟩

theorem ReadsCells.trans {s s' s'' : ParserState} {cells cells' : List DataCell}
    (h : ReadsCells headers s s' cells) (h' : ReadsCells headers s' s'' cells') :
    ReadsCells headers s s'' (cells ++ cells') where
  chunks := by
    rw [h'.chunks, h.chunks, h.chunkIndex, numbered_append, List.append_assoc, Nat.add_right_comm]
  chunkIndex := by rw [h'.chunkIndex, h.chunkIndex, List.length_append, Nat.add_assoc]
  total := by rw [h'.total, h.total, cellChars_append, Nat.add_assoc]

/-- Within the limits every cell of a record is read. -/
theorem readCells_csv {s : ParserState}
    (hcells : ∀ cell ∈ record, cell.length ≤ limits.maxCellLen)
    (hchars : s.totalExtractedChars + cellChars (recordCells position column record) ≤
      limits.maxChars) :
    ReadsCells headers s
      (readCells limits (TabularFile.csvFormat delimiter) none headers (position + 1) column
        record s)
      (recordCells position column record) := by
  induction record generalizing column s with
  | nil => exact .refl headers s
  | cons cell record ih =>
    obtain ⟨hcell, hrecord⟩ := List.forall_mem_cons.mp hcells
    have hsplit : recordCells position column (cell :: record) =
        [⟨position, column, cell⟩] ++ recordCells position (column + 1) record := rfl
    have htake : cell.take limits.maxCellLen = cell := List.take_of_length_le hcell
    have hlength : cellChars [⟨position, column, cell⟩] = cell.length := Nat.add_zero _
    rw [hsplit, cellChars_append, hlength] at hchars
    rw [readCells, if_neg (by simp [TabularFile.csvFormat]), hsplit]
    dsimp only
    rw [htake, if_neg (by omega)]
    have hchunk : cellChunk limits (TabularFile.csvFormat delimiter) none headers (position + 1)
        column (s.chunkIndex + 1) cell =
          DataCell.chunk headers (s.chunkIndex + 1) ⟨position, column, cell⟩ := by
      simp only [cellChunk, DataCell.chunk, htake, TabularFile.csvFormat, Nat.add_sub_cancel]
      rw [decide_eq_false (Nat.not_lt.mpr hcell)]
    refine ReadsCells.trans ⟨?_, rfl, ?_⟩ (ih hrecord ?_)
    · exact congrArg (s.chunks ++ [·]) hchunk
    · exact congrArg (s.totalExtractedChars + ·) hlength.symm
    · dsimp only
      omega

/-- Within the limits every cell of the later records is read. -/
theorem readRows_csv {s : ParserState} (hposition : 0 < position)
    (hrows : position + records.length ≤ limits.maxRows)
    (hcols : ∀ record ∈ records, record.length ≤ limits.maxCols)
    (hcells : ∀ record ∈ records, ∀ cell ∈ record, cell.length ≤ limits.maxCellLen)
    (hchars : s.totalExtractedChars + cellChars (dataCells position records) ≤ limits.maxChars) :
    ReadsCells headers s
      (readRows limits (TabularFile.csvFormat delimiter) none position headers records s)
      (dataCells position records) := by
  induction records generalizing position s with
  | nil => exact .refl headers s
  | cons record records ih =>
    obtain ⟨hcol, hcols⟩ := List.forall_mem_cons.mp hcols
    obtain ⟨hcell, hcells⟩ := List.forall_mem_cons.mp hcells
    rw [List.length_cons] at hrows
    rw [dataCells_cons, cellChars_append] at hchars
    have hfits : ¬ (limits.maxRows < position + 1 ∨ limits.maxCols < record.length) := by omega
    rw [readRows, if_neg hfits, if_neg (by omega), dataCells_cons]
    have hread : ReadsCells headers s
        (readCells limits (TabularFile.csvFormat delimiter) none headers (position + 1) 0 record s)
        (recordCells position 0 record) := readCells_csv hcell (by omega)
    refine hread.trans (ih (Nat.succ_pos _) (by omega) hcols hcells ?_)
    rw [hread.total]
    omega

/-- **Every cell at its position**: what the parser makes of records within its limits. -/
theorem parse_csv_eq (h : WithinLimits limits delimiter records) :
    ((TabularFile.csv delimiter records).parse limits).chunks = csvChunks delimiter records := by
  cases records with
  | nil => rfl
  | cons headers records =>
    obtain ⟨hrows, hcols, hcells, hchars⟩ := h
    obtain ⟨hcol, hcols⟩ := List.forall_mem_cons.mp hcols
    rw [List.length_cons] at hrows
    have hfits : ¬ (limits.maxRows < 0 + 1 ∨ limits.maxCols < headers.length) := by omega
    rw [TabularFile.parse, readRows, if_neg hfits, if_pos rfl]
    have hread : ∀ s : ParserState, s.totalExtractedChars = (joinCells [delimiter] headers).length →
        ReadsCells headers s
          (readRows limits (TabularFile.csvFormat delimiter) none 1 headers records s)
          (dataCells 1 records) := fun s hs =>
      readRows_csv Nat.one_pos (by omega) hcols hcells (hs ▸ hchars)
    have hstart : ({ chunks := [] ++ [headerChunk (TabularFile.csvFormat delimiter) none (0 + 1)
          (0 + 1) headers], warnings := [], chunkIndex := 0 + 1, totalExtractedChars :=
            0 + (joinCells [delimiter] headers).length } : ParserState) =
        { chunks := [headerChunk (TabularFile.csvFormat delimiter) none 1 1 headers]
          chunkIndex := 1
          totalExtractedChars := (joinCells [delimiter] headers).length } := by
      rw [Nat.zero_add (joinCells [delimiter] headers).length]
      rfl
    exact (congrArg (fun s => (readRows limits (TabularFile.csvFormat delimiter) none 1 headers
      records s).chunks) hstart).trans (hread _ rfl).chunks

end Reading

/-! ## Rebuilding -/

/-- The records with their positions, from the chunks of their cells. -/
def rebuild (chunks : List CellChunk) : List (Option ℕ × CellRow) :=
  ((chunks.filter fun chunk => chunk.chunkType == "CELL").splitBy fun chunk chunk' =>
    chunk.lineage.rowIndex == chunk'.lineage.rowIndex).map fun row =>
      (row.head?.bind fun chunk => chunk.lineage.rowIndex, row.map fun chunk => chunk.content)

section Rebuilding

variable {headers : CellRow} {position column index : ℕ} {record : CellRow}
  {records : List CellRow} {cells : List DataCell}

/-- The chunks of the cells of one row, by their row. -/
theorem rowIndex_of_mem_numbered (P : ℕ → Prop) (h : ∀ cell ∈ cells, P cell.position) :
    ∀ chunk ∈ numbered headers index cells, ∃ n, chunk.lineage.rowIndex = some n ∧ P n := by
  intro chunk hchunk
  obtain ⟨⟨cell, i⟩, hcell, rfl⟩ := List.mem_map.mp hchunk
  exact ⟨cell.position, rfl, h cell (List.fst_mem_of_mem_zipIdx hcell)⟩

theorem position_of_mem_recordCells :
    ∀ cell ∈ recordCells position column record, cell.position = position := by
  intro cell hcell
  obtain ⟨_, -, rfl⟩ := List.mem_map.mp hcell
  rfl

theorem le_position_of_mem_dataCells :
    ∀ cell ∈ dataCells position records, position ≤ cell.position := by
  intro cell hcell
  obtain ⟨⟨record, i⟩, hrecord, hcell⟩ := List.mem_flatMap.mp hcell
  rw [position_of_mem_recordCells cell hcell]
  exact List.le_snd_of_mem_zipIdx hrecord

/-- The chunks of one record give its cells back. -/
theorem content_numbered_recordCells :
    (numbered headers index (recordCells position column record)).map
      (fun chunk => chunk.content) = record := by
  induction record generalizing column index with
  | nil => rfl
  | cons cell record ih => exact congrArg (cell :: ·) ih

theorem numbered_eq_nil_iff : numbered headers index cells = [] ↔ cells = [] := by
  simp [numbered]

/-- All chunks of cells are cells. -/
theorem filter_numbered :
    (numbered headers index cells).filter (fun chunk => chunk.chunkType == "CELL") =
      numbered headers index cells := by
  refine List.filter_eq_self.mpr fun chunk hchunk => ?_
  obtain ⟨_, -, rfl⟩ := List.mem_map.mp hchunk
  rfl

/-- The records with their positions, up to empty ones. -/
def filledRecords (position : ℕ) (records : List CellRow) : List (Option ℕ × CellRow) :=
  ((records.zipIdx position).filter fun (record, _) => !record.isEmpty).map
    fun (record, position) => (some position, record)

/-- Grouping the chunks of cells by their rows gives the records back. -/
theorem rebuild_numbered :
    rebuild (numbered headers index (dataCells position records)) =
      filledRecords position records := by
  rw [rebuild, filter_numbered]
  induction records generalizing position index with
  | nil => rfl
  | cons record records ih =>
    rw [dataCells_cons, numbered_append]
    cases record with
    | nil => exact ih
    | cons cell record =>
      have hrow : ∀ chunk ∈ numbered headers index (recordCells position 0 (cell :: record)),
          ∃ n, chunk.lineage.rowIndex = some n ∧ n = position :=
        rowIndex_of_mem_numbered (· = position) position_of_mem_recordCells
      have hlater : ∀ chunk ∈ numbered headers
            (index + (recordCells position 0 (cell :: record)).length)
            (dataCells (position + 1) records),
          ∃ n, chunk.lineage.rowIndex = some n ∧ position + 1 ≤ n :=
        rowIndex_of_mem_numbered (position + 1 ≤ ·) le_position_of_mem_dataCells
      have hapart : ∀ chunk ∈ (numbered headers index
            (recordCells position 0 (cell :: record))).getLast?,
          ∀ chunk' ∈ (numbered headers (index + (recordCells position 0 (cell :: record)).length)
            (dataCells (position + 1) records)).head?,
          (chunk.lineage.rowIndex == chunk'.lineage.rowIndex) = false := by
        intro chunk hchunk chunk' hchunk'
        obtain ⟨n, hn, rfl⟩ := hrow chunk (List.mem_of_mem_getLast? hchunk)
        obtain ⟨n', hn', hle⟩ := hlater chunk' (List.mem_of_mem_head? hchunk')
        rw [hn, hn', beq_eq_false_iff_ne]
        exact fun heq => absurd (Option.some.inj heq) (by omega)
      have hone : (numbered headers index (recordCells position 0 (cell :: record))).splitBy
          (fun chunk chunk' => chunk.lineage.rowIndex == chunk'.lineage.rowIndex) =
            [numbered headers index (recordCells position 0 (cell :: record))] := by
        refine List.splitBy_of_isChain (by simp [numbered_eq_nil_iff, recordCells]) ?_
        refine List.Pairwise.isChain (List.pairwise_of_forall_mem_list ?_)
        intro chunk hchunk chunk' hchunk'
        obtain ⟨n, hn, rfl⟩ := hrow chunk hchunk
        obtain ⟨n', hn', rfl⟩ := hrow chunk' hchunk'
        rw [hn, hn']
        exact beq_self_eq_true _
      rw [List.splitBy_append hapart, hone, List.map_append, ih, List.map_singleton,
        content_numbered_recordCells]
      rfl

/-- **The records can be rebuilt** from the chunks of a text. -/
theorem rebuild_csvChunks (delimiter : Char) (records : List CellRow) :
    rebuild (csvChunks delimiter records) = filledRecords 1 records.tail := by
  cases records with
  | nil => rfl
  | cons headers records => exact rebuild_numbered

end Rebuilding

/-! ## Lossless extraction -/

/-- **The extraction is lossless**: the chunks are the header and every cell at its position, they
are counted in reading order, and the later records can be rebuilt from them, up to empty ones. -/
structure Lossless (delimiter : Char) (records : List CellRow) (chunks : List CellChunk) :
    Prop where
  /-- one chunk for the first record, one for every cell of the later ones, and no other -/
  chunks_eq : chunks = csvChunks delimiter records
  /-- they are counted from one on -/
  indices : chunks.map (fun chunk => chunk.chunkIndex) = List.range' 1 chunks.length
  /-- the later records can be rebuilt -/
  rebuilt : rebuild chunks = filledRecords 1 records.tail

theorem chunkIndex_numbered (headers : CellRow) (index : ℕ) (cells : List DataCell) :
    (numbered headers index cells).map (fun chunk => chunk.chunkIndex) =
      List.range' index (numbered headers index cells).length := by
  induction cells generalizing index with
  | nil => rfl
  | cons cell cells ih => exact congrArg (index :: ·) (ih (index + 1))

/-- **The extraction of a text is lossless** within the limits. The records can be put together
again from the chunks, cell by cell and in order. -/
theorem csv_lossless (limits : TabularLimits) (delimiter : Char) (records : List CellRow)
    (h : WithinLimits limits delimiter records) :
    Lossless delimiter records ((TabularFile.csv delimiter records).parse limits).chunks := by
  rw [parse_csv_eq h]
  refine ⟨rfl, ?_, rebuild_csvChunks delimiter records⟩
  cases records with
  | nil => rfl
  | cons headers records =>
    exact congrArg (1 :: ·) (chunkIndex_numbered headers 2 (dataCells 1 records))

/-- A text with a ragged record and an empty one. -/
def raggedRecords : List CellRow :=
  [["Kalem".toList, "Tutar".toList], ["Kar".toList, "5".toList, "6".toList], [], ["".toList]]

/-- Its cells are found at their positions. -/
theorem lossless_raggedRecords :
    Lossless ';' raggedRecords ((TabularFile.csv ';' raggedRecords).parse {}).chunks :=
  csv_lossless {} ';' raggedRecords
    ⟨by decide, by decide, by decide, by decide⟩

end FinanceIntelligence
