import FinanceIntelligence.DocumentContext
import FinanceIntelligence.JsonText
import FinanceIntelligence.Raising

/-!
# Figures that a model reads

`LlmFactExtractionService` (llm_fact_extraction_service.py): the chunks of a filing
go to a model in batches, the model reports figures as the arguments of a tool
call, and `verify_and_collect` keeps those that it can find in the excerpt the model
points to, that carry a known metric and that do not name another period.

What the model returns is any JSON. An entry that is no object has no `get`, and
the interpreter refuses to print an integer of more than 4300 digits: these two
raise, everything else is kept or dropped (`collectFigure_isOk_iff`).
-/

namespace FinanceIntelligence

/-- What the reading of a filing has to know about characters. -/
structure ReaderText where
  /-- classes of characters -/
  chars : TextClass
  /-- letter case -/
  letters : TextCase
  /-- `str.casefold` -/
  casefold : List Char → List Char
  /-- a character of a pattern and one of a text, equal for `re.IGNORECASE` -/
  sameLetter : Char → Char → Bool

/-- Reading of ASCII texts. -/
def ReaderText.ascii : ReaderText :=
  ⟨.ascii, .ascii, List.map Char.toLower, fun c d => c.toLower == d.toLower⟩

/-! ## JSON of a model -/

/-- A double, by its `repr`. -/
structure FloatText where
  /-- `repr(x)` -/
  repr : List Char
  /-- `x != 0` -/
  truthy : Bool

/-- JSON that a model returns. -/
abbrev ModelJson := Json (List Char) FloatText

namespace ModelJson

mutual

/-- The value as Python has it. -/
def toPy : ModelJson → PyValue
  | .null => .none
  | .bool b => .bool b
  | .int n => .other (dumpInt n) (dumpInt n) (n ≠ 0)
  | .double x => .other x.repr x.repr x.truthy
  | .str s => .str s
  | .arr l => .list (toPyList l)
  | .obj l => .dict (toPyFields l)

/-- The elements of an array. -/
def toPyList : List ModelJson → List PyValue
  | [] => []
  | v :: l => toPy v :: toPyList l

/-- The fields of an object. -/
def toPyFields : List (List Char × ModelJson) → PyDict
  | [] => []
  | (k, v) :: l => (k, toPy v) :: toPyFields l

end

mutual

/-- `str(v)` raises no exception: no integer in the value has more digits than
`sys.int_info.default_max_str_digits`. -/
def printable : ModelJson → Bool
  | .int n => (dumpInt n.natAbs).length ≤ 4300
  | .arr l => printableList l
  | .obj l => printableFields l
  | _ => true

/-- The elements of an array can be printed. -/
def printableList : List ModelJson → Bool
  | [] => true
  | v :: l => printable v && printableList l

/-- The fields of an object can be printed. -/
def printableFields : List (List Char × ModelJson) → Bool
  | [] => true
  | (_, v) :: l => printable v && printableFields l

end

end ModelJson

/-- The fields of a JSON object. -/
abbrev ModelObject := List (List Char × ModelJson)

/-- `d.get(key)`. -/
def ModelObject.get (d : ModelObject) (key : String) : Option ModelJson :=
  (d.find? fun (k, _) => k == key.toList).map (·.2)

/-- What the reading of a figure raises. -/
inductive ReadError where
  /-- `'…' object has no attribute 'get'` -/
  | attributeError
  /-- `Exceeds the limit (4300 digits) for integer string conversion` -/
  | valueError
deriving DecidableEq

namespace LlmFactExtractionService

variable (R : ReaderText)

/-! ## Dates in a text -/

/-- The characters of a class at the front of a text, and the rest. -/
def spanOf (p : Char → Bool) (s : List Char) : List Char × List Char :=
  (s.takeWhile p, s.dropWhile p)

/-- `_TR_MONTHS`. -/
def trMonths : List (List Char × ℕ) :=
  [("ocak", 1), ("şubat", 2), ("subat", 2), ("mart", 3), ("nisan", 4), ("mayıs", 5), ("mayis", 5),
    ("haziran", 6), ("temmuz", 7), ("ağustos", 8), ("agustos", 8), ("eylül", 9), ("eylul", 9),
    ("ekim", 10), ("kasım", 11), ("kasim", 11), ("aralık", 12), ("aralik", 12)].map
    fun (name, month) => (name.toList, month)

/-- A date as it is written: year, month, day. -/
abbrev WrittenDate := ℕ × ℕ × ℕ

/-- `int(…)` of the digits at the front. -/
def frontInt (s : List Char) : ℕ := ofDigitList (takeDigits R.chars.toCharClass s).1

/-- A digit of any script. -/
def digit (c : Char) : Bool := (R.chars.digit c).isSome

/-- `\s+(\d{4})`, and what follows it. -/
def yearAt (s : List Char) : Option (ℕ × List Char) :=
  let (blanks, rest) := spanOf R.chars.space s
  let year := rest.take 4
  if blanks ≠ [] ∧ year.length = 4 ∧ year.all (digit R) then
    some (frontInt R year, rest.drop 4)
  else none

/-- A month name and `\s+(\d{4})`: the first name that is there in front of a year. -/
def monthYearAt (s : List Char) : Option (List Char × ℕ × List Char) :=
  trMonths.findSome? fun (name, _) =>
    let found := s.take name.length
    if found.length = name.length ∧ (List.zipWith R.sameLetter name found).all id then
      (yearAt R (s.drop name.length)).map fun (year, rest) => (found, year, rest)
    else none

/-- `_TR_TEXT_DATE` at a place: the date, if the month is known, and what follows. -/
def textDateAt (_ : Option Char) (s : List Char) : Option (Option WrittenDate × List Char) :=
  let (day, rest) := spanOf (digit R) s
  let (blanks, rest) := spanOf R.chars.space rest
  if (day.length = 1 ∨ day.length = 2) ∧ blanks ≠ [] then
    (monthYearAt R rest).map fun (name, year, rest) =>
      ((trMonths.lookup (R.letters.lower name)).map fun month => (year, month, frontInt R day), rest)
  else none

/-- `_NUMERIC_DATE` at a place. -/
def numericDateAt (prev : Option Char) (s : List Char) : Option (Option WrittenDate × List Char) :=
  let (day, rest) := spanOf (digit R) s
  let (month, rest') := spanOf (digit R) rest.tail
  let (year, rest'') := spanOf (digit R) rest'.tail
  let separator : Option Char → Bool := fun c => c == some '.' || c == some '/'
  if ¬ prev.any (digit R) ∧ (day.length = 1 ∨ day.length = 2) ∧ separator rest.head? ∧
      (month.length = 1 ∨ month.length = 2) ∧ separator rest'.head? ∧ year.length = 4 then
    some (some (frontInt R year, frontInt R month, frontInt R day), rest'')
  else none

/-- `findall` of dates; the number bounds the length of what follows. -/
def findDates (dateAt : Option Char → List Char → Option (Option WrittenDate × List Char)) :
    ℕ → Option Char → List Char → List WrittenDate
  | 0, _, _ => []
  | _ + 1, _, [] => []
  | n + 1, prev, c :: cs =>
    match dateAt prev (c :: cs) with
    | some (found, rest) =>
      let consumed := (c :: cs).take (cs.length + 1 - rest.length)
      found.toList ++ findDates dateAt n consumed.getLast? rest
    | none => findDates dateAt n (some c) cs

/-- `dates_in_text`. -/
def datesInText (text : List Char) : List WrittenDate :=
  (findDates (textDateAt R) text.length none text ++
    findDates (numericDateAt R) text.length none text).eraseDups

/-- `_PRIOR_PERIOD_PHRASES`. -/
def priorPeriodPhrases : List String :=
  ["önceki dönem", "onceki donem", "geçen yıl", "gecen yil", "prior period", "previous period",
    "dönem başı", "donem basi", "opening balance"]

/-- `names_the_comparative_column`. -/
def namesTheComparativeColumn (text : List Char) : Bool :=
  priorPeriodPhrases.any (contains (R.casefold text))

/-- `states_a_conflicting_period`. -/
def statesAConflictingPeriod (text : List Char) (periodEnd : Option PyDate) : Bool :=
  match periodEnd with
  | none => false
  | some d =>
    let dates := datesInText R text
    !dates.isEmpty && (!dates.contains (d.year, d.month, d.day) || 1 < dates.length)

/-! ## Batches -/

/-- The position of a chunk and its text. -/
abbrev Batch := List (ℕ × List Char)

/-- `MAX_BATCHES_PER_DOCUMENT`. -/
def maxBatchesPerDocument : ℕ := 12

/-- `MAX_CHARS_PER_BATCH`. -/
def maxCharsPerBatch : ℕ := 12000

/-- The loop of `build_batches`. -/
def fillBatches (batches : List Batch) (current : Batch) (currentChars : ℕ) :
    List (ℕ × List Char) → List Batch
  | [] =>
    if current ≠ [] ∧ batches.length < maxBatchesPerDocument then batches ++ [current] else batches
  | (position, content) :: rest =>
    if current ≠ [] ∧ maxCharsPerBatch < currentChars + content.length then
      if maxBatchesPerDocument ≤ batches.length + 1 then batches ++ [current]
      else fillBatches (batches ++ [current]) [(position, content)] content.length rest
    else fillBatches batches (current ++ [(position, content)]) (currentChars + content.length) rest

/-- `build_batches`, of the contents of the chunks. -/
def buildBatches (contents : List (List Char)) : List Batch :=
  let stripped := contents.zipIdx.map fun (content, position) =>
    (position, strip R.chars.toCharClass content)
  fillBatches [] [] 0 ((stripped.filter fun (_, content) => content ≠ []).map
    fun (position, content) => (position, content.take maxCharsPerBatch))

/-! ## What is kept -/

/-- `ExtractedFact`. -/
structure ExtractedFact where
  metricCode : List Char
  rawLabel : List Char
  rawValue : List Char
  chunkIndex : ℕ
  currency : Option (List Char)
  scale : Option (List Char)
  periodHint : Option (List Char)

/-- `LlmExtractionResult`. -/
structure LlmExtractionResult where
  facts : List ExtractedFact := []
  batchesSent : ℕ := 0
  factsProposed : ℕ := 0
  factsRejectedUnverified : ℕ := 0
  factsRejectedUnknownMetric : ℕ := 0
  factsRejectedPeriodMismatch : ℕ := 0

/-- `ALLOWED_SCALES`. -/
def allowedScales : List (List Char) := ["ONE", "THOUSAND", "MILLION", "BILLION"].map String.toList

/-- `_normalise_for_matching`. -/
def normaliseForMatching (text : List Char) : List Char :=
  replaceChar '−' '-' (text.filter fun c => !R.chars.space c)

/-- `str(v)`. -/
def strOf (v : ModelJson) : Except ReadError (List Char) :=
  if v.printable then .ok (v.toPy.toStr R.chars) else .error .valueError

/-- `str(v).strip()`. -/
def stripOf (v : ModelJson) : Except ReadError (List Char) :=
  (strOf R v).map (strip R.chars.toCharClass)

/-- The text of a field that counts as true. -/
def textOf (v : Option ModelJson) : Except ReadError (Option (List Char)) :=
  match v.filter fun v => v.toPy.truthy with
  | none => .ok none
  | some v => (strOf R v).map some

/-- The text, or nothing if it is empty. -/
def nonempty (s : List Char) : Option (List Char) := if s = [] then none else some s

/-- The index of an excerpt, if the value is an integer and there is such an excerpt. -/
def excerptOf (v : Option ModelJson) (batch : Batch) : Option (ℕ × List Char) :=
  match v with
  | some (.int n) => if 0 ≤ n then batch[n.toNat]? else none
  | some (.bool b) => batch[b.toNat]?
  | _ => none

/-- The text names a period or a column other than that of the filing. -/
def namesAnotherPeriod (rawLabel periodHint : List Char) (periodEnd : Option PyDate) : Bool :=
  statesAConflictingPeriod R rawLabel periodEnd || statesAConflictingPeriod R periodHint periodEnd ||
    namesTheComparativeColumn R rawLabel || namesTheComparativeColumn R periodHint

/-- The scale of a figure; an unknown one counts as none. -/
def scaleOf (v : Option ModelJson) : Except ReadError (Option (List Char)) :=
  (textOf R v).map fun s =>
    let scale := R.letters.upper (strip R.chars.toCharClass (s.getD []))
    if scale ∈ allowedScales then some scale else none

/-- One round of `verify_and_collect`. -/
def collectFigure (batch : Batch) (allowedMetrics : List (List Char)) (periodEnd : Option PyDate)
    (result : LlmExtractionResult) (figure : ModelJson) : Except ReadError LlmExtractionResult :=
  match figure with
  | .obj fields => do
    let result := { result with factsProposed := result.factsProposed + 1 }
    let get := ModelObject.get fields
    let metricCode ← stripOf R ((get "metric_code").getD (.str []))
    let rawValue ← stripOf R ((get "raw_value").getD (.str []))
    let rawLabel ← stripOf R ((get "raw_label").getD (.str []))
    if metricCode ∉ allowedMetrics then
      pure { result with factsRejectedUnknownMetric := result.factsRejectedUnknownMetric + 1 }
    else
      match excerptOf (get "excerpt_index") batch with
      | none => pure { result with factsRejectedUnverified := result.factsRejectedUnverified + 1 }
      | some (chunkIndex, sourceText) =>
        if rawValue = [] ∨ ¬ normaliseForMatching R rawValue <:+: normaliseForMatching R sourceText then
          pure { result with factsRejectedUnverified := result.factsRejectedUnverified + 1 }
        else do
          let periodHint ← textOf R (get "period_hint")
          if namesAnotherPeriod R rawLabel (periodHint.getD []) periodEnd then
            pure { result with factsRejectedPeriodMismatch := result.factsRejectedPeriodMismatch + 1 }
          else do
            let scale ← scaleOf R (get "scale")
            let currency ← textOf R (get "currency")
            pure { result with
              facts := result.facts ++ [{
                metricCode := metricCode
                rawLabel := if rawLabel = [] then metricCode else rawLabel
                rawValue := rawValue
                chunkIndex := chunkIndex
                currency := currency.bind fun s => nonempty (strip R.chars.toCharClass s)
                scale := scale
                periodHint := periodHint.bind fun s => nonempty (strip R.chars.toCharClass s) }] }
  | _ => .error .attributeError

/-- A tool call, by `arguments_json`. -/
structure ToolCall where
  argumentsJson : ModelObject

/-- `_figures_from_response`. -/
def figuresFromResponse : List ToolCall → List ModelJson
  | [] => []
  | call :: calls =>
    match call.argumentsJson.get "figures" with
    | some (.arr figures) => figures
    | _ => figuresFromResponse calls

/-- One batch: it is sent, and what the model reports is collected. -/
def readBatch (invoke : ℕ → Batch → List ToolCall) (allowed : List (List Char))
    (periodEnd : Option PyDate) (result : LlmExtractionResult) (batch : Batch) :
    Except ReadError LlmExtractionResult :=
  (figuresFromResponse (invoke result.batchesSent batch)).foldlM
    (collectFigure R batch allowed periodEnd) { result with batchesSent := result.batchesSent + 1 }

/-- `extract`; `invoke` is what the model returns, call by call. -/
def extract (invoke : ℕ → Batch → List ToolCall) (contents : List (List Char))
    (metricCodes : List (List Char)) (periodEnd : Option PyDate) :
    Except ReadError LlmExtractionResult :=
  if metricCodes = [] then .ok {}
  else (buildBatches R contents).foldlM (readBatch R invoke metricCodes periodEnd) {}

/-! ## What raises -/

section Readable

variable {R} {batch : Batch} {allowed : List (List Char)} {periodEnd : Option PyDate}
  {invoke : ℕ → Batch → List ToolCall}

/-- What the reader makes of a field that has to be there. -/
def fieldText (R : ReaderText) (fields : ModelObject) (key : String) : List Char :=
  strip R.chars.toCharClass ((((fields.get key).getD (.str [])).toPy).toStr R.chars)

/-- What the reader makes of a field that may be missing. -/
def optionalText (R : ReaderText) (fields : ModelObject) (key : String) : List Char :=
  (((fields.get key).filter fun v => v.toPy.truthy).map fun v => v.toPy.toStr R.chars).getD []

/-- `str` of a field raises no exception. -/
def PrintableField (fields : ModelObject) (key : String) : Prop :=
  ∀ v ∈ fields.get key, v.printable = true

/-- `str` of a field that counts as true raises no exception. -/
def PrintableText (fields : ModelObject) (key : String) : Prop :=
  ∀ v ∈ fields.get key, v.toPy.truthy = true → v.printable = true

/-- The figure has a known metric and stands in the excerpt that it cites. -/
def Verified (R : ReaderText) (batch : Batch) (allowed : List (List Char)) (fields : ModelObject) :
    Prop :=
  fieldText R fields "metric_code" ∈ allowed ∧
    ∃ x ∈ excerptOf (fields.get "excerpt_index") batch, fieldText R fields "raw_value" ≠ [] ∧
      normaliseForMatching R (fieldText R fields "raw_value") <:+: normaliseForMatching R x.2

/-- **An entry that can be read**: an object with fields that can be printed, as far as
they are looked at. -/
def ReadableFigure (R : ReaderText) (batch : Batch) (allowed : List (List Char))
    (periodEnd : Option PyDate) : ModelJson → Prop
  | .obj fields =>
    PrintableField fields "metric_code" ∧ PrintableField fields "raw_value" ∧
      PrintableField fields "raw_label" ∧
      (Verified R batch allowed fields → PrintableText fields "period_hint" ∧
        (namesAnotherPeriod R (fieldText R fields "raw_label") (optionalText R fields "period_hint")
            periodEnd = false →
          PrintableText fields "scale" ∧ PrintableText fields "currency"))
  | _ => False

theorem stripOf_isOk_iff {fields : ModelObject} {key : String} :
    (∃ s, stripOf R ((fields.get key).getD (.str [])) = .ok s) ↔ PrintableField fields key := by
  rw [PrintableField, stripOf, strOf]
  cases fields.get key with
  | none => exact iff_of_true ⟨_, rfl⟩ nofun
  | some v => cases h : v.printable <;> simp [h, Except.map]

theorem stripOf_eq_ok {fields : ModelObject} {key : String} (h : PrintableField fields key) :
    stripOf R ((fields.get key).getD (.str [])) = .ok (fieldText R fields key) := by
  obtain ⟨s, hs⟩ := stripOf_isOk_iff.mpr h
  rw [hs]
  rw [stripOf, strOf] at hs
  split at hs
  · exact hs.symm
  · cases hs

theorem textOf_eq_ok {fields : ModelObject} {key : String} (h : PrintableText fields key) :
    ∃ o, textOf R (fields.get key) = .ok o ∧ o.getD [] = optionalText R fields key := by
  rw [textOf, optionalText]
  cases hv : fields.get key with
  | none => exact ⟨none, rfl, rfl⟩
  | some v =>
    cases ht : v.toPy.truthy with
    | false => exact ⟨none, by simp [Option.filter, ht], by simp [Option.filter, ht]⟩
    | true =>
      refine ⟨some (v.toPy.toStr R.chars), ?_, by simp [Option.filter, ht]⟩
      simp [Option.filter, ht, strOf, h v hv ht, Except.map]

theorem textOf_isOk_iff {fields : ModelObject} {key : String} :
    (∃ o, textOf R (fields.get key) = .ok o) ↔ PrintableText fields key := by
  refine ⟨fun ⟨o, ho⟩ v hv ht => ?_, fun h => (textOf_eq_ok h).imp fun _ => And.left⟩
  rw [textOf, hv] at ho
  by_contra hp
  simp [Option.filter, ht, strOf, hp, Except.map] at ho

theorem scaleOf_isOk_iff {fields : ModelObject} {key : String} :
    (∃ o, scaleOf R (fields.get key) = .ok o) ↔ PrintableText fields key := by
  rw [← textOf_isOk_iff (R := R), scaleOf]
  simp only [exceptMap_eq_ok]
  exact ⟨fun ⟨_, a, ha, _⟩ => ⟨a, ha⟩, fun ⟨a, ha⟩ => ⟨_, a, ha, rfl⟩⟩

/-- **What raises** is an entry that cannot be read. -/
theorem collectFigure_isOk_iff {result : LlmExtractionResult} {figure : ModelJson} :
    (∃ r, collectFigure R batch allowed periodEnd result figure = .ok r) ↔
      ReadableFigure R batch allowed periodEnd figure := by
  have hother : ∀ {r : LlmExtractionResult}, (Except.error .attributeError :
      Except ReadError LlmExtractionResult) ≠ .ok r := nofun
  cases figure with
  | obj fields =>
    constructor
    · rintro ⟨r, h⟩
      simp only [collectFigure, exceptBind_eq_ok] at h
      obtain ⟨code, hcode, value, hvalue, label, hlabel, h⟩ := h
      have hcode' := stripOf_isOk_iff.mp ⟨code, hcode⟩
      have hvalue' := stripOf_isOk_iff.mp ⟨value, hvalue⟩
      have hlabel' := stripOf_isOk_iff.mp ⟨label, hlabel⟩
      obtain rfl := Except.ok.inj ((stripOf_eq_ok hcode').symm.trans hcode)
      obtain rfl := Except.ok.inj ((stripOf_eq_ok hvalue').symm.trans hvalue)
      obtain rfl := Except.ok.inj ((stripOf_eq_ok hlabel').symm.trans hlabel)
      refine ⟨hcode', hvalue', hlabel', ?_⟩
      rintro ⟨hallowed, ⟨chunkIndex, sourceText⟩, hx, hne, hfound⟩
      rw [if_neg (not_not.mpr hallowed), Option.mem_def.mp hx] at h
      dsimp only at h
      rw [if_neg (not_or.mpr ⟨hne, not_not.mpr hfound⟩), exceptBind_eq_ok] at h
      obtain ⟨hint, hhint, h⟩ := h
      have hhint' := textOf_isOk_iff.mp ⟨hint, hhint⟩
      refine ⟨hhint', fun hperiod => ?_⟩
      obtain ⟨hint', hread, htext⟩ := textOf_eq_ok (R := R) hhint'
      obtain rfl := Except.ok.inj (hread.symm.trans hhint)
      rw [if_neg (by rw [htext, hperiod]; exact Bool.false_ne_true)] at h
      obtain ⟨scale, hscale, h⟩ := exceptBind_eq_ok.mp h
      obtain ⟨currency, hcurrency, -⟩ := exceptBind_eq_ok.mp h
      exact ⟨scaleOf_isOk_iff.mp ⟨scale, hscale⟩, textOf_isOk_iff.mp ⟨currency, hcurrency⟩⟩
    · rintro ⟨hcode, hvalue, hlabel, hrest⟩
      simp only [collectFigure, stripOf_eq_ok hcode, stripOf_eq_ok hvalue, stripOf_eq_ok hlabel,
        bind, Except.bind]
      split
      · exact ⟨_, rfl⟩
      · rename_i hallowed
        split
        · exact ⟨_, rfl⟩
        · rename_i chunkIndex sourceText hx
          split
          · exact ⟨_, rfl⟩
          · rename_i hfound
            rw [not_or, not_not] at hfound
            obtain ⟨hhint, hkept⟩ := hrest ⟨not_not.mp hallowed, _, hx, hfound⟩
            obtain ⟨hint, hread, htext⟩ := textOf_eq_ok (R := R) hhint
            rw [hread]
            simp only [htext]
            split
            · exact ⟨_, rfl⟩
            · rename_i hperiod
              obtain ⟨hscale, hcurrency⟩ := hkept (Bool.eq_false_iff.mpr hperiod)
              obtain ⟨scale, hscale⟩ := scaleOf_isOk_iff (R := R).mpr hscale
              obtain ⟨currency, hcurrency⟩ := textOf_isOk_iff (R := R).mpr hcurrency
              rw [hscale, hcurrency]
              exact ⟨_, rfl⟩
  | null => exact iff_of_false (fun ⟨_, h⟩ => hother h) id
  | bool b => exact iff_of_false (fun ⟨_, h⟩ => hother h) id
  | int n => exact iff_of_false (fun ⟨_, h⟩ => hother h) id
  | double x => exact iff_of_false (fun ⟨_, h⟩ => hother h) id
  | str s => exact iff_of_false (fun ⟨_, h⟩ => hother h) id
  | arr l => exact iff_of_false (fun ⟨_, h⟩ => hother h) id

theorem readBatch_isOk_iff {result : LlmExtractionResult} :
    (∃ r, readBatch R invoke allowed periodEnd result batch = .ok r) ↔
      ∀ figure ∈ figuresFromResponse (invoke result.batchesSent batch),
        ReadableFigure R batch allowed periodEnd figure := by
  have hround : ∀ s figure, (∃ r, collectFigure R batch allowed periodEnd s figure = .ok r) ↔
      ReadableFigure R batch allowed periodEnd figure := fun _ _ => collectFigure_isOk_iff
  exact foldlM_isOk_iff_forall hround

/-- What a round keeps: a figure with a known metric and the currency it was reported with. -/
def KeptFrom (R : ReaderText) (allowed : List (List Char)) (fact : ExtractedFact)
    (figure : ModelJson) : Prop :=
  fact.metricCode ∈ allowed ∧ (∀ scale ∈ fact.scale, scale ∈ allowedScales) ∧
    ∃ fields, figure = .obj fields ∧
      fact.currency = nonempty (strip R.chars.toCharClass (optionalText R fields "currency"))

/-- One round adds at most one fact, of the figure that it reads. -/
theorem collectFigure_spec {result r : LlmExtractionResult} {figure : ModelJson}
    (h : collectFigure R batch allowed periodEnd result figure = .ok r) :
    r.batchesSent = result.batchesSent ∧
      ∀ fact ∈ r.facts, fact ∈ result.facts ∨ KeptFrom R allowed fact figure := by
  cases figure with
  | obj fields =>
    simp only [collectFigure, exceptBind_eq_ok] at h
    obtain ⟨code, hcode, value, hvalue, label, hlabel, h⟩ := h
    split at h
    · cases h
      exact ⟨rfl, fun _ => .inl⟩
    rename_i hallowed
    split at h
    · cases h
      exact ⟨rfl, fun _ => .inl⟩
    split at h
    · cases h
      exact ⟨rfl, fun _ => .inl⟩
    obtain ⟨hint, hhint, h⟩ := exceptBind_eq_ok.mp h
    split at h
    · cases h
      exact ⟨rfl, fun _ => .inl⟩
    obtain ⟨scale, hscale, h⟩ := exceptBind_eq_ok.mp h
    obtain ⟨currency, hcurrency, h⟩ := exceptBind_eq_ok.mp h
    cases h
    refine ⟨rfl, fun fact hfact => ?_⟩
    rcases List.mem_append.mp hfact with hfact | hfact
    · exact .inl hfact
    obtain rfl := List.mem_singleton.mp hfact
    refine .inr ⟨not_not.mp hallowed, fun s hs => ?_, fields, rfl, ?_⟩
    · obtain ⟨text, -, hif⟩ := exceptMap_eq_ok.mp hscale
      rw [← hif] at hs
      dsimp only at hs
      split at hs
      · rename_i hmem
        exact Option.some.inj hs ▸ hmem
      · cases hs
    · obtain ⟨currency', hread, htext⟩ := textOf_eq_ok (R := R) (textOf_isOk_iff.mp ⟨_, hcurrency⟩)
      obtain rfl := Except.ok.inj (hread.symm.trans hcurrency)
      rw [← htext]
      cases currency' with
      | none => rfl
      | some s => rfl
  | null => cases h
  | bool b => cases h
  | int n => cases h
  | double x => cases h
  | str s => cases h
  | arr l => cases h

/-- One batch is one call, and every fact that is added is of a figure of its answer. -/
theorem readBatch_spec {result r : LlmExtractionResult}
    (h : readBatch R invoke allowed periodEnd result batch = .ok r) :
    r.batchesSent = result.batchesSent + 1 ∧
      ∀ fact ∈ r.facts, fact ∈ result.facts ∨
        ∃ figure ∈ figuresFromResponse (invoke result.batchesSent batch),
          KeptFrom R allowed fact figure := by
  refine foldlM_invariant (I := fun s => s.batchesSent = result.batchesSent + 1 ∧
    ∀ fact ∈ s.facts, fact ∈ result.facts ∨
      ∃ figure ∈ figuresFromResponse (invoke result.batchesSent batch),
        KeptFrom R allowed fact figure) ?_ ⟨rfl, fun _ => .inl⟩ h
  rintro s figure hfigure s' ⟨hsent, hfacts⟩ hs'
  obtain ⟨hsent', hfacts'⟩ := collectFigure_spec hs'
  refine ⟨hsent'.trans hsent, fun fact hfact => ?_⟩
  rcases hfacts' fact hfact with hold | hkept
  · exact hfacts fact hold
  · exact .inr ⟨figure, hfigure, hkept⟩

/-- The figures that a model reports, batch by batch. -/
def Reported (R : ReaderText) (invoke : ℕ → Batch → List ToolCall) (contents : List (List Char))
    (batch : Batch) (figure : ModelJson) : Prop :=
  ∃ i, (buildBatches R contents)[i]? = some batch ∧ figure ∈ figuresFromResponse (invoke i batch)

/-- **The reading of a filing raises** exactly if an entry cannot be read. -/
theorem extract_isOk_iff {contents metricCodes : List (List Char)} :
    (∃ r, extract R invoke contents metricCodes periodEnd = .ok r) ↔
      (metricCodes ≠ [] → ∀ batch figure, Reported R invoke contents batch figure →
        ReadableFigure R batch metricCodes periodEnd figure) := by
  have hloop : ∀ (l : List Batch) (s : LlmExtractionResult),
      (∃ r, l.foldlM (readBatch R invoke metricCodes periodEnd) s = .ok r) ↔
        ∀ i batch, l[i]? = some batch →
          ∀ figure ∈ figuresFromResponse (invoke (s.batchesSent + i) batch),
            ReadableFigure R batch metricCodes periodEnd figure := by
    intro l
    induction l with
    | nil => exact fun s => iff_of_true ⟨s, rfl⟩ (by simp)
    | cons b l ih =>
      intro s
      simp only [foldlM_cons_eq_ok]
      constructor
      · rintro ⟨r, s', hs', hr⟩ i batch hi
        cases i with
        | zero =>
          obtain rfl : b = batch := by simpa using hi
          exact readBatch_isOk_iff.mp ⟨s', hs'⟩
        | succ i =>
          have hrest := (ih s').mp ⟨r, hr⟩ i batch (by simpa using hi)
          rwa [(readBatch_spec hs').1, Nat.add_assoc, Nat.add_comm 1] at hrest
      · intro h
        obtain ⟨s', hs'⟩ := readBatch_isOk_iff.mpr (h 0 b rfl)
        obtain ⟨r, hr⟩ := (ih s').mpr fun i batch hi => by
          rw [(readBatch_spec hs').1, Nat.add_assoc, Nat.add_comm 1]
          exact h (i + 1) batch (by simpa using hi)
        exact ⟨r, s', hs', hr⟩
  rw [extract]
  split
  · rename_i hnil
    exact iff_of_true ⟨_, rfl⟩ fun h => absurd hnil h
  · rename_i hne
    rw [hloop, forall_prop_of_true hne]
    simp only [Reported, Nat.zero_add]
    exact ⟨fun h batch figure ⟨i, hi, hf⟩ => h i batch hi figure hf,
      fun h i batch hi figure hf => h batch figure ⟨i, hi, hf⟩⟩

/-- Every fact that is kept is of a figure that was reported. -/
theorem extract_spec {contents metricCodes : List (List Char)} {r : LlmExtractionResult}
    (h : extract R invoke contents metricCodes periodEnd = .ok r) :
    ∀ fact ∈ r.facts, ∃ batch figure, Reported R invoke contents batch figure ∧
      KeptFrom R metricCodes fact figure := by
  have hloop : ∀ (l : List Batch) (s : LlmExtractionResult),
      l.foldlM (readBatch R invoke metricCodes periodEnd) s = .ok r →
        ∀ fact ∈ r.facts, fact ∈ s.facts ∨ ∃ i batch, l[i]? = some batch ∧
          ∃ figure ∈ figuresFromResponse (invoke (s.batchesSent + i) batch),
            KeptFrom R metricCodes fact figure := by
    intro l
    induction l with
    | nil =>
      intro s hs
      cases hs
      exact fun _ => .inl
    | cons b l ih =>
      intro s hs fact hfact
      obtain ⟨s', hs', hrest⟩ := foldlM_cons_eq_ok.mp hs
      obtain ⟨hsent, hfacts⟩ := readBatch_spec hs'
      rcases ih s' hrest fact hfact with hold | ⟨i, batch, hi, hkept⟩
      · exact (hfacts fact hold).imp id fun hkept => ⟨0, b, rfl, hkept⟩
      · rw [hsent, Nat.add_assoc, Nat.add_comm 1] at hkept
        exact .inr ⟨i + 1, batch, by simpa using hi, hkept⟩
  rw [extract] at h
  split at h
  · cases h
    exact nofun
  · intro fact hfact
    rcases hloop _ _ h fact hfact with hold | ⟨i, batch, hi, figure, hfigure, hkept⟩
    · cases hold
    · rw [Nat.zero_add] at hfigure
      exact ⟨batch, figure, ⟨i, hi, hfigure⟩, hkept⟩

end Readable

end LlmFactExtractionService

end FinanceIntelligence
