import FinanceIntelligence.Binary64
import Mathlib.Algebra.BigOperators.Group.List.Basic
import Mathlib.Data.List.Infix

/-!
# The archive of a spreadsheet

An XLSX file is a ZIP archive that is inspected twice: by `validate_file_security`
(core/security_pipeline.py) when it is uploaded, and by `XlsxParser.parse`
(parsers/xlsx_parser.py) when it is read. The limits of the two stand in different files.

* `uploadError_eq_none` — what an archive that is admitted at upload is like.
* `archiveWarning_eq_none_iff` — when the parser does not reject an archive.
-/

namespace FinanceIntelligence

/-- An entry of a ZIP archive. -/
structure ZipEntry where
  filename : String
  /-- `file_size`, the size when it is uncompressed -/
  fileSize : ℕ
  compressSize : ℕ
deriving DecidableEq

namespace ZipEntry

/-- `file_size / compress_size`; sizes are below `2 ^ 53`, where `float(…)` is exact. -/
def ratio (e : ZipEntry) : ℚ := Binary64.div e.fileSize e.compressSize

/-- The total of the uncompressed sizes. -/
def total (entries : List ZipEntry) : ℕ := (entries.map (·.fileSize)).sum

end ZipEntry

/-! ## The inspection at upload -/

namespace SecurityPipeline

/-- `MAX_XLSX_SIZE_BYTES` -/
def maxXlsxSizeBytes : ℕ := 15 * 1024 * 1024

/-- `MAX_ZIP_RATIO` -/
def maxZipRatio : ℚ := 100

/-- `MAX_ZIP_ENTRIES` -/
def maxZipEntries : ℕ := 500

/-- `MAX_TOTAL_UNCOMPRESSED_BYTES` -/
def maxTotalUncompressedBytes : ℕ := 100 * 1024 * 1024

/-- `MAX_SINGLE_ENTRY_UNCOMPRESSED_BYTES` -/
def maxSingleEntryUncompressedBytes : ℕ := 20 * 1024 * 1024

/-- `ALLOWED_XLSX_MIMES` -/
def allowedXlsxMimes : List String :=
  ["application/vnd.openxmlformats-officedocument.spreadsheetml.sheet", "application/octet-stream"]

/-- The name of an entry leaves the archive. -/
def traverses (name : String) : Bool :=
  decide ("..".toList <:+: name.toList) || name.toList.head? == some '/' ||
    name.toList.any fun c => c == '\\' || c == ':' || c == '\x00'

/-- The `code` of the exception about an entry. -/
def entryError (e : ZipEntry) : Option String :=
  if maxSingleEntryUncompressedBytes < e.fileSize then some "RESOURCE_LIMIT_EXCEEDED"
  else if traverses e.filename then some "PATH_TRAVERSAL_DETECTED"
  else if 0 < e.compressSize ∧ maxZipRatio < e.ratio then some "RESOURCE_LIMIT_EXCEEDED"
  else none

/-- The `code` of the exception about an archive. -/
def archiveError (entries : List ZipEntry) : Option String :=
  if maxZipEntries < entries.length then some "RESOURCE_LIMIT_EXCEEDED"
  else if ¬ ("[Content_Types].xml" ∈ entries.map (·.filename) ∧
      "xl/workbook.xml" ∈ entries.map (·.filename)) then some "MALFORMED_DOCUMENT"
  else
    match entries.findSome? entryError with
    | some code => some code
    | none =>
      if maxTotalUncompressedBytes < ZipEntry.total entries then some "RESOURCE_LIMIT_EXCEEDED"
      else none

/-- A file whose name ends in `.xlsx`. -/
structure XlsxUpload where
  /-- `len(file_bytes)` -/
  fileSize : ℕ
  /-- `declared_mime.lower().strip()` -/
  declaredMime : String
  /-- the file has the signature of a ZIP archive -/
  zipSignature : Bool
  /-- `infolist()`; `none` for a `BadZipFile` -/
  entries : Option (List ZipEntry)

/-- The `code` of the exception that `validate_file_security` raises; `none` if it admits the
file. -/
def uploadError (file : XlsxUpload) : Option String :=
  if maxXlsxSizeBytes < file.fileSize then some "FILE_TOO_LARGE"
  else if file.declaredMime ∉ allowedXlsxMimes then some "MIME_MISMATCH"
  else if !file.zipSignature then some "MIME_MISMATCH"
  else
    match file.entries with
    | none => some "MALFORMED_DOCUMENT"
    | some entries => archiveError entries

variable {e : ZipEntry} {entries : List ZipEntry} {file : XlsxUpload}

/-- An entry that is admitted is not compressed more than a hundredfold. -/
theorem ratio_le_of_entryError (h : entryError e = none) :
    ¬ (0 < e.compressSize ∧ maxZipRatio < e.ratio) := by
  intro hratio
  simp only [entryError, if_pos hratio] at h
  split at h
  · cases h
  · split at h <;> cases h

theorem archiveError_eq_none (h : archiveError entries = none) :
    entries.length ≤ maxZipEntries ∧ ∀ e ∈ entries, entryError e = none := by
  rw [archiveError] at h
  split at h
  · cases h
  rename_i hcount
  split at h
  · cases h
  split at h
  · cases h
  rename_i hentries
  exact ⟨not_lt.mp hcount, List.findSome?_eq_none_iff.mp hentries⟩

/-- **What is admitted**: a readable archive whose entries are admitted. -/
theorem uploadError_eq_none (h : uploadError file = none) : ∃ entries,
    file.entries = some entries ∧ entries.length ≤ maxZipEntries ∧
      ∀ e ∈ entries, ¬ (0 < e.compressSize ∧ maxZipRatio < e.ratio) := by
  rw [uploadError] at h
  split at h
  · cases h
  split at h
  · cases h
  split at h
  · cases h
  split at h
  · cases h
  · rename_i entries hentries
    obtain ⟨hcount, herrors⟩ := archiveError_eq_none h
    exact ⟨entries, hentries, hcount, fun e he => ratio_le_of_entryError (herrors e he)⟩

end SecurityPipeline

/-! ## The inspection of the parser -/

namespace XlsxParser

/-- The limits of `settings`. -/
structure ZipSettings where
  maxZipEntries : ℕ := 1000
  maxZipTotalUncompressedBytes : ℕ := 50 * 1024 * 1024
  maxZipEntryUncompressedBytes : ℕ := 10 * 1024 * 1024
  maxZipCompressionRatio : ℚ := 100

/-- The warning `ZIP_BOMB_LIMIT_EXCEEDED`, with what its message names. -/
inductive ZipBomb where
  /-- `XLSX archive contains … ZIP entries` -/
  | entryCount (n : ℕ)
  /-- `XLSX ZIP entry '…' uncompressed size (… bytes)` -/
  | entrySize (filename : String) (size : ℕ)
  /-- `XLSX ZIP entry '…' compression ratio (…)` -/
  | entryRatio (filename : String) (ratio : ℚ)
  /-- `XLSX total uncompressed size (… bytes)` -/
  | totalSize (n : ℕ)
deriving DecidableEq

variable (settings : ZipSettings)

/-- The warning about an entry; a small one may be compressed as much as it likes. -/
def entryWarning (e : ZipEntry) : Option ZipBomb :=
  if settings.maxZipEntryUncompressedBytes < e.fileSize then some (.entrySize e.filename e.fileSize)
  else if 0 < e.compressSize ∧ settings.maxZipCompressionRatio < e.ratio ∧ 1024 < e.fileSize then
    some (.entryRatio e.filename e.ratio)
  else none

/-- The warning with which a file ends `REJECTED`; `none` if it is read on. An archive that cannot
be opened is not rejected here. -/
def archiveWarning : Option (List ZipEntry) → Option ZipBomb
  | none => none
  | some entries =>
    if settings.maxZipEntries < entries.length then some (.entryCount entries.length)
    else
      match entries.findSome? (entryWarning settings) with
      | some w => some w
      | none =>
        if settings.maxZipTotalUncompressedBytes < ZipEntry.total entries then
          some (.totalSize (ZipEntry.total entries))
        else none

variable {settings} {e : ZipEntry} {entries : List ZipEntry}

theorem entryWarning_eq_none_iff : entryWarning settings e = none ↔
    e.fileSize ≤ settings.maxZipEntryUncompressedBytes ∧
      ¬ (0 < e.compressSize ∧ settings.maxZipCompressionRatio < e.ratio ∧ 1024 < e.fileSize) := by
  rw [entryWarning]
  split
  · rename_i hsize
    exact iff_of_false nofun fun h => absurd hsize (not_lt.mpr h.1)
  · rename_i hsize
    split
    · rename_i hratio
      exact iff_of_false nofun fun h => h.2 hratio
    · rename_i hratio
      exact iff_of_true rfl ⟨not_lt.mp hsize, hratio⟩

/-- **What the parser reads on**: few and small entries, not too compressed, of a bounded total. -/
theorem archiveWarning_eq_none_iff : archiveWarning settings (some entries) = none ↔
    entries.length ≤ settings.maxZipEntries ∧ (∀ e ∈ entries, entryWarning settings e = none) ∧
      ZipEntry.total entries ≤ settings.maxZipTotalUncompressedBytes := by
  rw [archiveWarning]
  split
  · rename_i hcount
    exact iff_of_false nofun fun h => absurd hcount (not_lt.mpr h.1)
  rename_i hcount
  split
  · rename_i w hw
    refine iff_of_false nofun fun h => ?_
    rw [List.findSome?_eq_none_iff.mpr h.2.1] at hw
    cases hw
  rename_i hentries
  have hall := List.findSome?_eq_none_iff.mp hentries
  split
  · rename_i htotal
    exact iff_of_false nofun fun h => absurd htotal (not_lt.mpr h.2.2)
  · rename_i htotal
    exact iff_of_true rfl ⟨not_lt.mp hcount, hall, not_lt.mp htotal⟩

/-- **The gap between the inspections**: a file that is admitted at upload is read on exactly if
its entries and their total meet the smaller limits of the parser. -/
theorem uploaded_notRejected_iff {file : SecurityPipeline.XlsxUpload}
    (h : SecurityPipeline.uploadError file = none) :
    archiveWarning {} file.entries = none ↔
      ∀ entries, file.entries = some entries →
        (∀ e ∈ entries, e.fileSize ≤ 10 * 1024 * 1024) ∧
          ZipEntry.total entries ≤ 50 * 1024 * 1024 := by
  obtain ⟨entries, hentries, hcount, hratio⟩ := SecurityPipeline.uploadError_eq_none h
  have hcount' : entries.length ≤ 1000 := hcount.trans (by decide)
  rw [hentries, archiveWarning_eq_none_iff]
  constructor
  · rintro ⟨-, hall, htotal⟩ entries' h'
    obtain rfl := Option.some.inj h'
    exact ⟨fun e he => (entryWarning_eq_none_iff.mp (hall e he)).1, htotal⟩
  · intro hlimits
    obtain ⟨hsizes, htotal⟩ := hlimits entries rfl
    -- the ratios meet the same limit at upload
    exact ⟨hcount', fun e he => entryWarning_eq_none_iff.mpr
      ⟨hsizes e he, fun hr => hratio e he ⟨hr.1, hr.2.1⟩⟩, htotal⟩

/-- A workbook with one large sheet. -/
def workbook (sheetSize : ℕ) : SecurityPipeline.XlsxUpload where
  fileSize := 1200000
  declaredMime := "application/octet-stream"
  zipSignature := true
  entries := some
    [⟨"[Content_Types].xml", 900, 300⟩, ⟨"xl/workbook.xml", 1500, 500⟩,
      ⟨"xl/worksheets/sheet1.xml", sheetSize, 1150000⟩]

/-- A sheet of eight megabytes is read. -/
theorem uploaded_notRejected_workbook : archiveWarning {} (workbook 8000000).entries = none := by
  refine (uploaded_notRejected_iff (by decide +kernel)).mpr fun entries h => ?_
  obtain rfl := Option.some.inj h
  decide

/-- A sheet of eleven megabytes is admitted and then rejected. -/
theorem uploaded_rejected : ¬ ∀ file : SecurityPipeline.XlsxUpload,
    SecurityPipeline.uploadError file = none → archiveWarning {} file.entries = none := by
  intro h
  have hwarning := h (workbook 11000000) (by decide +kernel)
  exact absurd hwarning (by decide +kernel)

end XlsxParser

end FinanceIntelligence
