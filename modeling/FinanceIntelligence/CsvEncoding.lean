import FinanceIntelligence.Regex
import FinanceIntelligence.Utf8
import FinanceIntelligence.XlsxArchive

/-!
# The encoding of a text file

Before a CSV file is admitted, `validate_file_security` (core/security_pipeline.py) looks at the
bytes that `security_validation_read_size` asks for, the first 65536. If the detector is not sure
of their encoding, they have to be UTF-8, and they may end **inside a character**.
`CsvParser.parse` (parsers/csv_parser.py) decodes the whole file.

* `decode_utf8Bytes` — the parser decodes valid UTF-8 to **its text**, whatever the detector says;
* `neverRefused_iff` — valid UTF-8 is **never refused** exactly if the first 65536 bytes end
  between two characters (or the name or the type of the file is refused before);
* `not_neverRefused_cutText` — a letter across this byte is **refused**.
-/

namespace FinanceIntelligence

/-- What `chardet.detect` answers. -/
structure Detection where
  /-- `(encoding or "").lower()` -/
  encoding : String := ""
  confidence : Option ℚ := none

/-- The detector's answer to some bytes. -/
abbrev Detector := List ℕ → Detection

namespace Detection

/-- `confidence or 0.0` -/
def confidenceOrZero (d : Detection) : ℚ := d.confidence.getD 0

/-- The detector is sure: the confidence is not below `0.7`. -/
def isSure (d : Detection) : Bool := Binary64.round (7 / 10) ≤ d.confidenceOrZero

end Detection

namespace SecurityPipeline

/-! ## Names -/

/-- `SECURITY_HEADER_SAMPLE_BYTES` -/
def securityHeaderSampleBytes : ℕ := 65536

/-- `WHOLE_OBJECT_VALIDATION_EXTENSIONS` -/
def wholeObjectValidationExtensions : List String := [".pdf", ".xlsx"]

/-- `MAX_PDF_SIZE_BYTES` -/
def maxPdfSizeBytes : ℕ := 25 * 1024 * 1024

/-- `ALLOWED_CSV_MIMES` -/
def allowedCsvMimes : List String :=
  ["text/csv", "text/plain", "application/csv", "text/comma-separated-values",
    "application/octet-stream"]

/-- `forbidden_sub_exts` -/
def forbiddenSubExts : List String := ["exe", "sh", "bat", "cmd", "vbs", "js", "py", "php", "pl"]

/-- `os.path.basename` -/
def basename (filename : List Char) : List Char :=
  (filename.reverse.takeWhile (· != '/')).reverse

/-- `[a-zA-Z0-9_\-\.]` -/
def isNameChar (c : Char) : Bool := c.isAlphanum || c == '_' || c == '-' || c == '.'

/-- The name in a form that is safe everywhere. -/
def sanitizeFilename (filename : List Char) : List Char :=
  let sanitized := (basename filename).map fun c => if isNameChar c then c else '_'
  if sanitized.isEmpty then "unnamed_document".toList else sanitized

/-- `sanitize_filename(filename).lower()`, which has ASCII characters only. -/
def lowerName (filename : List Char) : List Char := (sanitizeFilename filename).map Char.toLower

/-- What follows the last dot of a name. -/
def lastPart (name : List Char) : List Char := (name.reverse.takeWhile (· != '.')).reverse

/-- `os.path.splitext(name)[1]` of a name without slashes; dots at its beginning do not count. -/
def extension (name : List Char) : List Char :=
  if '.' ∈ name ∧ (name.take (name.length - (lastPart name).length - 1)).any (· != '.') then
    '.' :: lastPart name
  else []

/-- A part of the name before the last one is an extension of programs. -/
def hasForbiddenPart (name : List Char) : Bool :=
  let parts := name.splitOn '.'
  2 < parts.length && parts.dropLast.any fun part => String.ofList part ∈ forbiddenSubExts

/-! ## Validation -/

/-- The number of bytes to read before the file is validated. -/
def securityValidationReadSize (declaredFilename : List Char) (objectSizeBytes : ℕ) : ℕ :=
  if wholeObjectValidationExtensions.any fun ext =>
      ext.toList.isSuffixOf (lowerName declaredFilename) then max objectSizeBytes 1
  else securityHeaderSampleBytes

/-- The `code` of the exception about a CSV file. -/
def csvError (detect : Detector) (fileBytes : List ℕ) (declaredMime : String) : Option String :=
  if declaredMime ∉ allowedCsvMimes then some "MIME_MISMATCH"
  else if 0 ∈ fileBytes.take 4096 then some "MIME_MISMATCH"
  else
    let sample := fileBytes.take 65536
    if (detect sample).isSure = false ∧ decodeUtf8 sample = none then some "ENCODING_UNCERTAIN"
    else none

/-- The `code` of the exception that `validate_file_security` raises; `none` if it admits the
file. The type is `declared_mime.lower().strip()`, and `otherFormats` stands for what is said about
the files whose structure is validated. -/
def validateFileSecurity (detect : Detector)
    (otherFormats : List Char → List ℕ → String → Option String) (fileBytes : List ℕ)
    (declaredFilename : List Char) (declaredMime : String) : Option String :=
  let name := lowerName declaredFilename
  let ext := extension name
  if hasForbiddenPart name then some "UNSUPPORTED_FILE_TYPE"
  else if ext ∉ [".pdf".toList, ".xlsx".toList, ".csv".toList] then some "UNSUPPORTED_FILE_TYPE"
  else if (if ext = ".pdf".toList then maxPdfSizeBytes else maxXlsxSizeBytes) <
      fileBytes.length then some "FILE_TOO_LARGE"
  else if ext = ".csv".toList then csvError detect fileBytes declaredMime
  else otherFormats ext fileBytes declaredMime

/-- The bytes of a file that are read and validated. -/
def bytesRead (declaredFilename : List Char) (fileBytes : List ℕ) : List ℕ :=
  fileBytes.take (securityValidationReadSize declaredFilename fileBytes.length)

/-- The file is one whose name says that it is a CSV file. -/
def IsCsvName (declaredFilename : List Char) : Prop :=
  extension (lowerName declaredFilename) = ".csv".toList

end SecurityPipeline

/-! ## Decoding -/

namespace CsvParser

/-- What comes of decoding a file. -/
inductive Decoded where
  /-- `REJECTED`, for null bytes -/
  | rejected
  /-- `AWAITING_REVIEW`, for an uncertain encoding -/
  | uncertain
  /-- `text_content` -/
  | text (content : List Char)
deriving DecidableEq

/-- `ALLOWED_ENCODINGS` -/
def allowedEncodings : List String :=
  ["utf-8", "utf-8-sig", "ascii", "iso-8859-1", "windows-1254", "latin-1", "utf-16"]

/-- The bytes of the byte order mark. -/
def byteOrderMark : List ℕ := [0xEF, 0xBB, 0xBF]

/-- The decoding of `parse`; `codec` stands for the other encodings. -/
def decode (detect : Detector) (codec : String → List ℕ → Option (List Char))
    (fileBytes : List ℕ) : Decoded :=
  if 0 ∈ fileBytes then .rejected
  else
    let signed := if byteOrderMark.isPrefixOf fileBytes then decodeUtf8 (fileBytes.drop 3) else none
    match signed.or (decodeUtf8 fileBytes) with
    | some content => .text content
    | none =>
      let res := detect (fileBytes.take 65536)
      if res.encoding ∈ allowedEncodings ∧ res.isSure = true then
        match codec res.encoding fileBytes with
        | some content => .text content
        | none => .uncertain
      else .uncertain

end CsvParser

/-- A text without the byte order mark at its beginning. -/
def withoutMark : List Char → List Char
  | [] => []
  | c :: text => if c.toNat = 0xFEFF then text else c :: text

/-! ## Valid UTF-8 -/

section Valid

variable {text : List Char}

/-- Only the null character has a null byte. -/
theorem zero_not_mem_utf8Bytes (h : '\x00' ∉ text) : 0 ∉ utf8Bytes text := by
  intro hmem
  obtain ⟨c, hc, hzero⟩ := List.mem_flatMap.mp hmem
  have hnull : c.toNat = 0 := by
    simp only [utf8Char] at hzero
    split_ifs at hzero <;> simp at hzero <;> omega
  have heq : c = '\x00' := by
    rw [← Char.ofNat_toNat c, hnull]
  exact h (heq ▸ hc)

/-- A file starts with the bytes of the mark exactly if its text starts with the mark. -/
theorem byteOrderMark_prefix_iff :
    CsvParser.byteOrderMark.isPrefixOf (utf8Bytes text) = true ↔
      ∃ rest, text = Char.ofNat 0xFEFF :: rest := by
  have hmark : CsvParser.byteOrderMark = utf8Bytes [Char.ofNat 0xFEFF] := by decide
  rw [List.isPrefixOf_iff_prefix, hmark, utf8Bytes_prefix_iff]
  constructor
  · rintro ⟨rest, rfl⟩
    exact ⟨rest, rfl⟩
  · rintro ⟨rest, rfl⟩
    exact ⟨rest, rfl⟩

/-- **The parser decodes** valid UTF-8 to its text, without the mark. -/
theorem decode_utf8Bytes (detect : Detector) (codec : String → List ℕ → Option (List Char))
    (h : '\x00' ∉ text) :
    CsvParser.decode detect codec (utf8Bytes text) = .text (withoutMark text) := by
  rw [CsvParser.decode, if_neg (zero_not_mem_utf8Bytes h)]
  dsimp only
  by_cases hmark : CsvParser.byteOrderMark.isPrefixOf (utf8Bytes text) = true
  · obtain ⟨rest, rfl⟩ := byteOrderMark_prefix_iff.mp hmark
    have hdrop : (utf8Bytes (Char.ofNat 0xFEFF :: rest)).drop 3 = utf8Bytes rest := rfl
    rw [if_pos hmark, hdrop, decodeUtf8_utf8Bytes]
    rfl
  · rw [if_neg hmark, Option.none_or, decodeUtf8_utf8Bytes]
    have hsame : withoutMark text = text := by
      cases text with
      | nil => rfl
      | cons c rest =>
        refine if_neg fun hc => hmark (byteOrderMark_prefix_iff.mpr ⟨rest, ?_⟩)
        rw [← hc, Char.ofNat_toNat]
    rw [hsame]

end Valid

namespace SecurityPipeline

variable {name : List Char} {mime : String} {text : List Char}

/-- The end of a name with an extension. -/
theorem suffix_of_extension {ext : List Char} (hext : ext ≠ []) (h : extension name = '.' :: ext) :
    ext <:+ name := by
  rw [extension] at h
  split at h
  · obtain ⟨-, rfl⟩ := List.cons.inj h
    rw [lastPart, ← List.reverse_prefix, List.reverse_reverse]
    exact List.takeWhile_prefix _
  · cases h

/-- Of a CSV file a sample is read. -/
theorem bytesRead_csv (h : IsCsvName name) (fileBytes : List ℕ) :
    bytesRead name fileBytes = fileBytes.take 65536 := by
  have hcsv : "csv".toList <:+ lowerName name := suffix_of_extension (by decide) h
  have hnone : (wholeObjectValidationExtensions.any fun ext =>
      ext.toList.isSuffixOf (lowerName name)) = false := by
    rw [List.any_eq_false]
    intro ext hext hsuffix
    obtain ⟨before, hbefore⟩ := List.isSuffixOf_iff_suffix.mp hsuffix
    obtain ⟨before', hbefore'⟩ := hcsv
    have hlast := congrArg List.getLast? (hbefore.trans hbefore'.symm)
    rw [List.getLast?_append, List.getLast?_append] at hlast
    simp only [wholeObjectValidationExtensions, List.mem_cons, List.not_mem_nil, or_false] at hext
    rcases hext with rfl | rfl
    · exact absurd hlast (by simp)
    · exact absurd hlast (by simp)
  rw [bytesRead, securityValidationReadSize, if_neg (by simp [hnone])]
  rfl

/-- **Valid UTF-8 is never refused**, whatever the detector answers. -/
structure NeverRefused (otherFormats : List Char → List ℕ → String → Option String)
    (name : List Char) (mime : String) (text : List Char) : Prop where
  /-- its encoding is not uncertain to the validation -/
  validated : ∀ detect, validateFileSecurity detect otherFormats
    (bytesRead name (utf8Bytes text)) name mime ≠ some "ENCODING_UNCERTAIN"
  /-- and the parser decodes it to its text -/
  decoded : ∀ detect codec,
    CsvParser.decode detect codec (utf8Bytes text) = .text (withoutMark text)

/-- The validation of a CSV file that has no null bytes. -/
theorem validate_csv (h : IsCsvName name) (hnull : '\x00' ∉ text) (detect : Detector)
    (otherFormats : List Char → List ℕ → String → Option String) :
    validateFileSecurity detect otherFormats (bytesRead name (utf8Bytes text)) name mime =
        some "ENCODING_UNCERTAIN" ↔
      hasForbiddenPart (lowerName name) = false ∧ mime ∈ allowedCsvMimes ∧
        (detect ((utf8Bytes text).take 65536)).isSure = false ∧
        decodeUtf8 ((utf8Bytes text).take 65536) = none := by
  have hext : extension (lowerName name) = ".csv".toList := h
  have hfits : ¬ maxXlsxSizeBytes < ((utf8Bytes text).take 65536).length := by
    rw [List.length_take, maxXlsxSizeBytes]
    omega
  have hzero : 0 ∉ (utf8Bytes text).take 4096 := fun hmem =>
    zero_not_mem_utf8Bytes hnull (List.mem_of_mem_take hmem)
  have hknown : ¬ ".csv".toList ∉ [".pdf".toList, ".xlsx".toList, ".csv".toList] := by decide
  have hpdf : ".csv".toList ≠ ".pdf".toList := by decide
  rw [bytesRead_csv h, validateFileSecurity]
  simp only [hext, if_neg hknown, if_neg hpdf, if_neg hfits, if_true, csvError, List.take_take,
    Nat.min_self]
  rw [show min 4096 65536 = 4096 from rfl, if_neg hzero]
  cases hasForbiddenPart (lowerName name) with
  | true => simp
  | false =>
    by_cases hmime : mime ∈ allowedCsvMimes
    · simp [hmime]
    · simp [hmime]

/-- **Valid UTF-8 is never refused** for its encoding exactly if the first 65536 bytes end between
two characters, or the file is refused for its name or its type. -/
theorem neverRefused_iff (otherFormats : List Char → List ℕ → String → Option String)
    (name : List Char) (mime : String) (text : List Char) (hname : IsCsvName name)
    (hnull : '\x00' ∉ text) :
    NeverRefused otherFormats name mime text ↔
      hasForbiddenPart (lowerName name) = true ∨ mime ∉ allowedCsvMimes ∨
        EndsBetween securityHeaderSampleBytes text := by
  constructor
  · intro h
    -- a detector that is never sure
    have hunsure := h.validated fun _ => {}
    rw [ne_eq, validate_csv hname hnull] at hunsure
    rw [securityHeaderSampleBytes, ← decodeUtf8_take_iff]
    by_contra hcon
    push Not at hcon
    obtain ⟨hpart, hmime, hcut⟩ := hcon
    have hsure : ({} : Detection).isSure = false := by decide +kernel
    exact hunsure ⟨by simpa using hpart, hmime, hsure, by simpa using hcut⟩
  · intro h
    refine ⟨fun detect hrefused => ?_, fun detect codec => decode_utf8Bytes detect codec hnull⟩
    obtain ⟨hpart, hmime, -, hcut⟩ := (validate_csv hname hnull detect otherFormats).mp hrefused
    rcases h with h | h | h
    · rw [hpart] at h
      cases h
    · exact h hmime
    · rw [securityHeaderSampleBytes, ← decodeUtf8_take_iff, hcut] at h
      cases h

/-- A line with a letter of two bytes at its end. -/
def cutText (n : ℕ) : List Char := List.replicate n 'a' ++ ['ş']

/-- Without its last byte it is no UTF-8. -/
theorem decodeUtf8_take_cutText (n : ℕ) :
    decodeUtf8 ((utf8Bytes (cutText n)).take (n + 1)) = none := by
  have hlength : (utf8Bytes (List.replicate n 'a')).length = n := by
    induction n with
    | zero => rfl
    | succ n ih => exact congrArg (· + 1) ih
  have hlast : utf8Bytes ['ş'] = [0xC5, 0x9F] := by decide
  have hbytes : (utf8Bytes (cutText n)).take (n + 1) =
      utf8Bytes (List.replicate n 'a') ++ [0xC5] := by
    rw [cutText, utf8Bytes_append, hlast, List.take_append, hlength,
      List.take_of_length_le (by omega), Nat.add_sub_cancel_left]
    rfl
  rw [hbytes, decodeUtf8, Utf8Decoder.feed_append, Utf8Decoder.feed_running]
  rfl

/-- **A letter across the last byte that is read**: the file is refused if the detector is not
sure. -/
theorem not_neverRefused_cutText :
    validateFileSecurity (fun _ => {}) (fun _ _ _ => none)
        (bytesRead "veri.csv".toList (utf8Bytes (cutText 65535))) "veri.csv".toList "text/csv" =
      some "ENCODING_UNCERTAIN" ∧
    ¬ NeverRefused (fun _ _ _ => none) "veri.csv".toList "text/csv" (cutText 65535) := by
  have hname : IsCsvName "veri.csv".toList := by
    unfold IsCsvName
    decide
  have hnull : '\x00' ∉ cutText 65535 := by
    intro hmem
    rcases List.mem_append.mp hmem with hmem | hmem
    · exact absurd (List.eq_of_mem_replicate hmem) (by decide)
    · exact absurd (List.mem_singleton.mp hmem) (by decide)
  have hmime : "text/csv" ∈ allowedCsvMimes := by decide
  have hrefused := (validate_csv hname hnull (fun _ => {}) fun _ _ _ => none).mpr
    ⟨by decide, hmime, by decide +kernel, decodeUtf8_take_cutText 65535⟩
  exact ⟨hrefused, fun h => h.validated _ hrefused⟩

/-- A short file is never refused. -/
theorem neverRefused_short :
    NeverRefused (fun _ _ _ => none) "veri.csv".toList "text/csv" "Şube;Tutar".toList ↔
      hasForbiddenPart (lowerName "veri.csv".toList) = true ∨ "text/csv" ∉ allowedCsvMimes ∨
        EndsBetween securityHeaderSampleBytes "Şube;Tutar".toList :=
  neverRefused_iff _ _ _ _ (by unfold IsCsvName; decide) (by decide)

end SecurityPipeline

end FinanceIntelligence
