import FinanceIntelligence.JsonText
import FinanceIntelligence.Utf8
import Mathlib.Algebra.Group.Nat.Defs

/-!
# The event stream on the wire

`stream_analysis_events` writes a frame of three lines for each event; the mobile
`AnalysisSseClient` decodes the bytes as they arrive, keeps the line that is not yet
ended in a buffer and dispatches what it has read at every empty line.

A decoded text is a list of Unicode characters; the strings of a payload are UTF-16.
-/

namespace FinanceIntelligence

/-! ## The server -/

/-- An event of the log. -/
structure ServerEvent (D : DoubleText) where
  eventType : String
  sequence : ℕ
  /-- `payload_json` -/
  payload : List (List Char × PyJson D)
  /-- `sequence` is an `Integer` column -/
  sequence_lt : sequence < 2 ^ 63
  /-- the integers of the payload have 64 bits and the keys of an object differ -/
  payload_wf : (Json.obj payload).Wf

section Server

variable {D : DoubleText}

/-- The four lines of an event. -/
def ServerEvent.lines (ev : ServerEvent D) : List (List Char) :=
  ["event: ".toList ++ ev.eventType.toList, "id: ".toList ++ Nat.toDigits 10 ev.sequence,
    "data: ".toList ++ dumps D (.obj ev.payload), []]

/-- The text of an event. -/
def ServerEvent.frame (ev : ServerEvent D) : List Char := ev.lines.flatMap (· ++ ['\n'])

/-- `event_generator`, encoded by the response. -/
def streamAnalysisEvents (events : List (ServerEvent D)) : List ℕ :=
  utf8Bytes (events.flatMap ServerEvent.frame)

end Server

/-! ## Dart's strings -/

/-- A blank of `String.trim`. -/
def dartBlank (c : Char) : Bool :=
  let n := c.toNat
  (9 ≤ n && n ≤ 13) || n == 0x20 || n == 0x85 || n == 0xA0 || n == 0x1680 ||
    (0x2000 ≤ n && n ≤ 0x200A) || n == 0x2028 || n == 0x2029 || n == 0x202F || n == 0x205F ||
    n == 0x3000 || n == 0xFEFF

/-- `text.trim()`. -/
def trim (text : List Char) : List Char :=
  ((text.dropWhile dartBlank).reverse.dropWhile dartBlank).reverse

/-- The value of a hexadecimal integer, which has 64 bits of either sign. -/
def hexTryParse (sign : List Char) : List Char → Option ℤ
  | '0' :: x :: d :: digits =>
    if x = 'x' ∨ x = 'X' then
      ((d :: digits).mapM hexValue).bind fun values =>
        let n := values.foldl (fun (n v : ℕ) => 16 * n + v) 0
        if n < 2 ^ 64 then
          let v : ℤ := if n < 2 ^ 63 then n else n - 2 ^ 64
          some (if sign = ['-'] then -v else v)
        else none
    else none
  | _ => none

/-- `int.tryParse(text)`. -/
def intTryParse (text : List Char) : Option ℤ :=
  let (sign, l) := readSign ['+', '-'] (trim text)
  if l = [] then none
  else if l.all Char.isDigit then
    if IsInt64 (signedValue sign l) then some (signedValue sign l) else none
  else hexTryParse sign l

section Strings

variable (D : DoubleText)

mutual

/-- `v.toString()`. -/
def Json.dartText : DartJson D → DartString
  | .null => utf16 "null".toList
  | .bool b => utf16 (if b then "true".toList else "false".toList)
  | .int n => utf16 (dumpInt n)
  | .double x => utf16 (D.toText x)
  | .str s => s
  | .arr l => utf16 ['['] ++ ((utf16 ", ".toList).intercalate (Json.dartTexts l) ++ utf16 [']'])
  | .obj l => utf16 ['{'] ++ ((utf16 ", ".toList).intercalate (Json.dartFieldTexts l) ++ utf16 ['}'])

/-- The elements of a list. -/
def Json.dartTexts : List (DartJson D) → List DartString
  | [] => []
  | v :: l => v.dartText :: Json.dartTexts l

/-- The fields of a map. -/
def Json.dartFieldTexts : List (DartString × DartJson D) → List DartString
  | [] => []
  | (k, v) :: l => (k ++ (utf16 ": ".toList ++ v.dartText)) :: Json.dartFieldTexts l

end

/-- `data[key]?.toString()`. -/
def textField {D : DoubleText} (data : List (DartString × DartJson D)) (key : String) :
    Option DartString :=
  match data.find? fun (k, _) => k == utf16 key.toList with
  | none | some (_, .null) => none
  | some (_, v) => some (v.dartText D)

end Strings

/-! ## The client -/

/-- An event as the client has it. -/
structure AnalysisDomainEventModel (D : DoubleText) where
  eventType : List Char
  sequence : ℤ
  analysisId : DartString
  payload : List (DartString × DartJson D)

/-- The event types that the client allows. -/
def allowedEvents : List String :=
  ["analysis.accepted", "analysis.state_changed", "analysis.plan_ready", "analysis.tool_started",
    "analysis.tool_completed", "analysis.clarification_required", "analysis.clarification_received",
    "analysis.resumed", "analysis.clarification_expired", "analysis.warning",
    "analysis.partial_result", "analysis.completed", "analysis.failed", "analysis.cancelled",
    "heartbeat"]

namespace AnalysisDomainEventModel

variable {D : DoubleText}

/-- The id in a payload. -/
def analysisIdOf (data : List (DartString × DartJson D)) : DartString :=
  (textField data "analysis_job_id").getD ((textField data "job_id").getD [])

/-- `fromSseLine`. -/
def fromSseLine (type id : List Char) (data : List (DartString × DartJson D)) :
    Except String (AnalysisDomainEventModel D) :=
  if allowedEvents.any fun allowed => allowed.toList == type then
    .ok
      { eventType := type
        sequence := (intTryParse id).getD 0
        analysisId := analysisIdOf data
        payload := data }
  else
    .error ("UNSUPPORTED_ANALYSIS_EVENT: Event type \"" ++ String.ofList type ++
      "\" is not allowed.")

end AnalysisDomainEventModel

/-- What the client has read of the event that is not yet dispatched. -/
structure SseLines where
  /-- `buffer`: the line that is not yet ended -/
  buffer : List Char := []
  currentType : List Char := []
  currentId : List Char := []
  currentData : List Char := []
deriving DecidableEq

/-- `text.split('\\n')`: the lines that are ended, and what follows the last of them. -/
def splitLines : List Char → List (List Char) × List Char
  | [] => ([], [])
  | c :: l =>
    let (lines, last) := splitLines l
    if c = '\n' then ([] :: lines, last)
    else
      match lines with
      | [] => ([], c :: last)
      | line :: lines => ((c :: line) :: lines, last)

namespace SseLines

variable (D : DoubleText)

/-- The event at an empty line; what cannot be read is ignored. -/
def dispatch (s : SseLines) : List (AnalysisDomainEventModel D) :=
  if s.currentType ≠ [] ∧ s.currentData ≠ [] then
    match jsonDecode D s.currentData with
    | some (.obj data) =>
      match AnalysisDomainEventModel.fromSseLine s.currentType s.currentId data with
      | .ok ev => [ev]
      | .error _ => []
    | _ => []
  else []

/-- A line. -/
def line (s : SseLines) (text : List Char) : List (AnalysisDomainEventModel D) × SseLines :=
  let trimmed := trim text
  if trimmed = [] then (s.dispatch D, { buffer := s.buffer })
  else if "event:".toList.isPrefixOf trimmed then
    ([], { s with currentType := trim (trimmed.drop 6) })
  else if "id:".toList.isPrefixOf trimmed then ([], { s with currentId := trim (trimmed.drop 3) })
  else if "data:".toList.isPrefixOf trimmed then
    let dataVal := trim (trimmed.drop 5)
    ([], { s with
      currentData := if s.currentData = [] then dataVal else s.currentData ++ '\n' :: dataVal })
  else ([], s)

/-- Lines. -/
def lines (s : SseLines) : List (List Char) → List (AnalysisDomainEventModel D) × SseLines
  | [] => ([], s)
  | text :: rest =>
    let (out, s) := s.line D text
    let (more, s) := s.lines rest
    (out ++ more, s)

/-- A chunk of text. -/
def chunk (s : SseLines) (text : List Char) : List (AnalysisDomainEventModel D) × SseLines :=
  let (ended, buffer) := splitLines (s.buffer ++ text)
  { s with buffer }.lines D ended

/-- Chunks of text. -/
def chunks (s : SseLines) : List (List Char) → List (AnalysisDomainEventModel D) × SseLines
  | [] => ([], s)
  | text :: rest =>
    let (out, s) := s.chunk D text
    let (more, s) := s.chunks rest
    (out ++ more, s)

end SseLines

/-- The client between two chunks of bytes. -/
structure AnalysisSseClient where
  /-- the decoder of the bytes -/
  decoder : Utf8Decoder := {}
  lines : SseLines := {}

/-- `streamEvents`: the events, and whether the stream ended without an exception. -/
def AnalysisSseClient.streamEvents (D : DoubleText) (client : AnalysisSseClient) :
    List (List ℕ) → List (AnalysisDomainEventModel D) × Bool
  | [] => ([], client.decoder.state == .start)
  | bytes :: rest =>
    match client.decoder.feed bytes with
    | none => ([], false)
    | some (text, decoder) =>
      let (out, lines) := client.lines.chunk D text
      let (more, ok) := AnalysisSseClient.streamEvents D { decoder, lines } rest
      (out ++ more, ok)

/-! ## Chunks do not matter -/

section Chunks

variable {D : DoubleText}

theorem splitLines_cons (c : Char) (l : List Char) : splitLines (c :: l) =
    if c = '\n' then ([] :: (splitLines l).1, (splitLines l).2)
    else
      match (splitLines l).1 with
      | [] => ([], c :: (splitLines l).2)
      | line :: lines => ((c :: line) :: lines, (splitLines l).2) :=
  rfl

/-- **Two pieces** are split as one, the unfinished line of the first in front of the second. -/
theorem splitLines_append (x y : List Char) : splitLines (x ++ y) =
    ((splitLines x).1 ++ (splitLines ((splitLines x).2 ++ y)).1,
      (splitLines ((splitLines x).2 ++ y)).2) := by
  induction x with
  | nil => rfl
  | cons c x ih =>
    rw [List.cons_append, splitLines_cons, splitLines_cons, ih]
    by_cases hc : c = '\n'
    · simp [hc]
    · simp only [if_neg hc]
      cases hlines : (splitLines x).1 with
      | nil =>
        rw [List.nil_append, List.cons_append, splitLines_cons, if_neg hc]
        rfl
      | cons line lines => simp

/-- The unfinished line has no end. -/
theorem splitLines_last (x : List Char) : splitLines (splitLines x).2 = ([], (splitLines x).2) := by
  have hlen : ∀ {y : List Char}, (splitLines y).1 = [] → splitLines y = ([], y) := by
    intro y
    induction y with
    | nil => exact fun _ => rfl
    | cons c y ih =>
      intro h
      rw [splitLines_cons] at h ⊢
      split at h
      · cases h
      · rename_i hc
        rw [if_neg hc]
        split at h
        · rename_i hlines
          simp [ih hlines]
        · cases h
  induction x with
  | nil => rfl
  | cons c x ih =>
    rw [splitLines_cons]
    split
    · exact ih
    · rename_i hc
      split
      · rename_i hlines
        have hwhole := hlen hlines
        simp [hwhole, splitLines_cons, hc]
      · exact ih

/-- Lines that are ended, one after the other. -/
theorem splitLines_lines {lines : List (List Char)} (h : ∀ line ∈ lines, '\n' ∉ line) :
    splitLines (lines.flatMap (· ++ ['\n'])) = (lines, []) := by
  have hline : ∀ (line rest : List Char), '\n' ∉ line → splitLines (line ++ '\n' :: rest) =
      (line :: (splitLines rest).1, (splitLines rest).2) := by
    intro line rest hline
    induction line with
    | nil => rfl
    | cons c line ih =>
      have hc : c ≠ '\n' := fun hc => hline (hc ▸ List.mem_cons_self)
      rw [List.cons_append, splitLines_cons, if_neg hc,
        ih fun hmem => hline (List.mem_cons_of_mem c hmem)]
  induction lines with
  | nil => rfl
  | cons line lines ih =>
    rw [List.flatMap_cons, List.append_assoc, List.singleton_append,
      hline _ _ (h line List.mem_cons_self), ih fun l hl => h l (List.mem_cons_of_mem line hl)]

namespace SseLines

/-- A line does not read the buffer. -/
theorem line_buffer (s : SseLines) (buffer text : List Char) :
    ({ s with buffer } : SseLines).line D text =
      ((s.line D text).1, { (s.line D text).2 with buffer }) := by
  by_cases h₁ : trim text = []
  · simp only [line, if_pos h₁]
    rfl
  by_cases h₂ : "event:".toList.isPrefixOf (trim text) = true
  · simp only [line, if_neg h₁, if_pos h₂]
  by_cases h₃ : "id:".toList.isPrefixOf (trim text) = true
  · simp only [line, if_neg h₁, if_neg h₂, if_pos h₃]
  by_cases h₄ : "data:".toList.isPrefixOf (trim text) = true
  · simp only [line, if_neg h₁, if_neg h₂, if_neg h₃, if_pos h₄]
  · simp only [line, if_neg h₁, if_neg h₂, if_neg h₃, if_neg h₄]

theorem lines_buffer (s : SseLines) (buffer : List Char) (texts : List (List Char)) :
    ({ s with buffer } : SseLines).lines D texts =
      ((s.lines D texts).1, { (s.lines D texts).2 with buffer }) := by
  induction texts generalizing s with
  | nil => rfl
  | cons text rest ih =>
    simp only [lines, line_buffer s buffer text]
    rw [ih]

theorem lines_append (s : SseLines) (l m : List (List Char)) : s.lines D (l ++ m) =
    ((s.lines D l).1 ++ ((s.lines D l).2.lines D m).1, ((s.lines D l).2.lines D m).2) := by
  induction l generalizing s with
  | nil => rfl
  | cons text l ih => simp only [List.cons_append, lines, ih, List.append_assoc]

/-- **Two chunks of text** are read as one. -/
theorem chunk_append (s : SseLines) (x y : List Char) : s.chunk D (x ++ y) =
    ((s.chunk D x).1 ++ ((s.chunk D x).2.chunk D y).1, ((s.chunk D x).2.chunk D y).2) := by
  have hread : ∀ (s : SseLines) (text : List Char), s.chunk D text =
      ((s.lines D (splitLines (s.buffer ++ text)).1).1,
        { (s.lines D (splitLines (s.buffer ++ text)).1).2 with
          buffer := (splitLines (s.buffer ++ text)).2 }) := fun s text => lines_buffer s _ _
  rw [hread s (x ++ y), hread s x, hread, ← List.append_assoc, splitLines_append, lines_append]
  simp only [lines_buffer]

/-- The unfinished line has no end. -/
def Unfinished (s : SseLines) : Prop := splitLines s.buffer = ([], s.buffer)

theorem unfinished_chunk (s : SseLines) (text : List Char) : (s.chunk D text).2.Unfinished := by
  have hbuffer : (s.chunk D text).2.buffer = (splitLines (s.buffer ++ text)).2 := by
    change (({ s with buffer := (splitLines (s.buffer ++ text)).2 } : SseLines).lines D
      (splitLines (s.buffer ++ text)).1).2.buffer = _
    rw [lines_buffer]
  rw [Unfinished, hbuffer]
  exact splitLines_last _

/-- **Chunks of text** are read as their concatenation. -/
theorem chunks_flatten {s : SseLines} (h : s.Unfinished) (texts : List (List Char)) :
    s.chunks D texts = s.chunk D texts.flatten := by
  induction texts generalizing s with
  | nil =>
    rw [List.flatten_nil, chunk, List.append_nil, h]
    rfl
  | cons text rest ih =>
    rw [List.flatten_cons, chunk_append, ← ih (unfinished_chunk s text)]
    rfl

end SseLines

/-- The client reads the text that its decoder decodes. -/
theorem AnalysisSseClient.streamEvents_eq {client : AnalysisSseClient} {chunks : List (List ℕ)}
    {texts : List (List Char)} {decoder : Utf8Decoder}
    (h : client.decoder.feedAll chunks = some (texts, decoder)) :
    client.streamEvents D chunks = ((client.lines.chunks D texts).1, decoder.state == .start) := by
  induction chunks generalizing client texts with
  | nil =>
    obtain ⟨rfl, rfl⟩ := Prod.mk.inj (Option.some.inj h)
    rfl
  | cons bytes rest ih =>
    obtain ⟨⟨text, d⟩, hfeed, hrest⟩ := Option.bind_eq_some_iff.mp h
    obtain ⟨⟨more, d'⟩, hall, heq⟩ := Option.map_eq_some_iff.mp hrest
    obtain ⟨rfl, rfl⟩ := Prod.mk.inj heq
    rw [streamEvents, hfeed]
    simp only
    have hnext := @ih ⟨d, (client.lines.chunk D text).2⟩ _ hall
    rw [hnext]
    rfl

end Chunks

/-! ## The round trip -/

section RoundTrip

variable {D : DoubleText}

theorem trim_eq_self {l : List Char} (hhead : ∀ c ∈ l.head?, dartBlank c = false)
    (hlast : ∀ c ∈ l.getLast?, dartBlank c = false) : trim l = l := by
  have hdrop : ∀ {m : List Char}, (∀ c ∈ m.head?, dartBlank c = false) →
      m.dropWhile dartBlank = m := by
    intro m hm
    cases m with
    | nil => rfl
    | cons c m => exact List.dropWhile_cons_of_neg (by simp [hm c rfl])
  rw [trim, hdrop hhead, hdrop (by simpa using hlast), List.reverse_reverse]

theorem trim_blank (l : List Char) : trim (' ' :: l) = trim l := by
  rw [trim, List.dropWhile_cons_of_pos (by decide), trim]

theorem dartBlank_of_isDigit {c : Char} (h : c.isDigit = true) : dartBlank c = false := by
  obtain ⟨h₁, h₂⟩ := isPrintable_of_isDigit h
  have h₃ : c.toNat ≠ 32 := by
    intro hc
    obtain rfl : c = ' ' := Char.toNat_inj.mp hc
    revert h
    decide
  simp only [dartBlank, Bool.or_eq_false_iff, Bool.and_eq_false_iff, decide_eq_false_iff_not,
    beq_eq_false_iff_ne]
  omega

/-- A number is what `trim` leaves, whatever stands in front of it. -/
theorem trim_digits {pre : List Char} (n : ℕ) (hpre : ∀ c ∈ pre.head?, dartBlank c = false) :
    trim (pre ++ Nat.toDigits 10 n) = pre ++ Nat.toDigits 10 n := by
  have hdigits := (isWhole_toDigits n).2.1
  refine trim_eq_self (fun c hc => ?_) fun c hc => ?_
  · cases pre with
    | nil => exact dartBlank_of_isDigit (hdigits c (List.mem_of_mem_head? hc))
    | cons d pre => exact hpre c hc
  · rw [List.getLast?_append_of_ne_nil _ Nat.toDigits_ne_nil] at hc
    exact dartBlank_of_isDigit (hdigits c (List.mem_of_getLast? hc))

/-- A sequence is read from its text. -/
theorem intTryParse_toDigits {n : ℕ} (hn : n < 2 ^ 63) :
    intTryParse (Nat.toDigits 10 n) = some (n : ℤ) := by
  have htrim := @trim_digits [] n nofun
  rw [List.nil_append] at htrim
  obtain ⟨hne, hdigits, -⟩ := isWhole_toDigits n
  have hsign : readSign ['+', '-'] (Nat.toDigits 10 n) = ([], Nat.toDigits 10 n) := by
    obtain ⟨c, l, hcons, hc⟩ := (isWhole_toDigits n).head
    rw [hcons]
    exact readSign_append (.inl rfl) (not_mem_of_isDigit (by simp) hc)
  have hvalue : signedValue [] (Nat.toDigits 10 n) = n := by
    rw [signedValue, if_neg (by decide), Nat.ofDigitChars_ten_toDigits]
  have hint : IsInt64 (n : ℤ) := by
    unfold IsInt64
    omega
  rw [intTryParse, htrim, hsign]
  simp only [if_neg hne, List.all_eq_true.mpr hdigits, if_true, hvalue, if_pos hint]

namespace ServerEvent

variable (ev : ServerEvent D)

/-- The event as the client has it. -/
def toClient : AnalysisDomainEventModel D where
  eventType := ev.eventType.toList
  sequence := ev.sequence
  analysisId := AnalysisDomainEventModel.analysisIdOf (Json.toDartFields ev.payload)
  payload := Json.toDartFields ev.payload

/-- The text of a payload. -/
theorem dumps_payload : ∃ text, dumps D (.obj ev.payload) = '{' :: (text ++ ['}']) :=
  ⟨_, by rw [dumps]⟩

variable {ev}

/-- The lines of an allowed type. -/
theorem trim_type : ∀ type ∈ allowedEvents,
    trim ("event: ".toList ++ type.toList) = "event: ".toList ++ type.toList ∧
      trim type.toList = type.toList ∧ type.toList ≠ [] ∧ '\n' ∉ "event: ".toList ++ type.toList := by
  decide

/-- No line has an end in it. -/
theorem newline_notMem (htype : ev.eventType ∈ allowedEvents) :
    ∀ line ∈ ev.lines, '\n' ∉ line := by
  have hprintable : ∀ {l : List Char}, PrintableText l → '\n' ∉ l := fun hl hmem =>
    absurd (hl _ hmem) (by decide)
  intro line hline
  simp only [lines, List.mem_cons, List.not_mem_nil, or_false] at hline
  rcases hline with rfl | rfl | rfl | rfl
  · exact (trim_type _ htype).2.2.2
  · refine hprintable (PrintableText.append (by decide) ?_)
    exact printable_digits (isWhole_toDigits _).2.1
  · exact hprintable (PrintableText.append (by decide) (printable_dumps _))
  · exact List.not_mem_nil

/-- **The lines of an event** are read as the event. -/
theorem lines_event (htype : ev.eventType ∈ allowedEvents) :
    ({} : SseLines).lines D ev.lines = ([ev.toClient], {}) := by
  obtain ⟨htrim, htrim', hne, -⟩ := trim_type _ htype
  obtain ⟨text, htext⟩ := ev.dumps_payload
  have hbraces : ∀ pre : List Char, (∀ c ∈ pre.head?, dartBlank c = false) →
      trim (pre ++ '{' :: (text ++ ['}'])) = pre ++ '{' :: (text ++ ['}']) := by
    intro pre hpre
    refine trim_eq_self (fun c hc => ?_) fun c hc => ?_
    · cases pre with
      | nil =>
        obtain rfl : c = '{' := by simpa using hc.symm
        decide
      | cons d pre => exact hpre c hc
    · rw [← List.cons_append, ← List.append_assoc, List.getLast?_concat] at hc
      obtain rfl : c = '}' := by simpa using hc.symm
      decide
  have h₁ : ({} : SseLines).line D ("event: ".toList ++ ev.eventType.toList) =
      ([], { currentType := ev.eventType.toList }) := by
    have hdrop : ("event: ".toList ++ ev.eventType.toList).drop 6 = ' ' :: ev.eventType.toList := rfl
    simp only [SseLines.line, htrim, hdrop, trim_blank, htrim']
    rfl
  have h₂ : ({ currentType := ev.eventType.toList } : SseLines).line D
      ("id: ".toList ++ Nat.toDigits 10 ev.sequence) =
      ([], { currentType := ev.eventType.toList, currentId := Nat.toDigits 10 ev.sequence }) := by
    have hdrop : ("id: ".toList ++ Nat.toDigits 10 ev.sequence).drop 3 =
        ' ' :: Nat.toDigits 10 ev.sequence := rfl
    have htrim₁ := @trim_digits "id: ".toList ev.sequence
      fun c hc => by obtain rfl : 'i' = c := Option.some.inj hc; decide
    have htrim₂ := @trim_digits [] ev.sequence nofun
    rw [List.nil_append] at htrim₂
    simp only [SseLines.line, htrim₁, hdrop, trim_blank, htrim₂]
    rfl
  have h₃ : ({ currentType := ev.eventType.toList, currentId := Nat.toDigits 10 ev.sequence } :
      SseLines).line D ("data: ".toList ++ dumps D (.obj ev.payload)) =
      ([], { currentType := ev.eventType.toList, currentId := Nat.toDigits 10 ev.sequence,
             currentData := dumps D (.obj ev.payload) }) := by
    have hdrop : ("data: ".toList ++ dumps D (.obj ev.payload)).drop 5 =
        ' ' :: dumps D (.obj ev.payload) := rfl
    have htrim₁ := hbraces "data: ".toList
      fun c hc => by obtain rfl : 'd' = c := Option.some.inj hc; decide
    have htrim₂ := hbraces [] nofun
    rw [List.nil_append] at htrim₂
    rw [htext] at hdrop ⊢
    simp only [SseLines.line, htrim₁, hdrop, trim_blank, htrim₂]
    rfl
  have hallowed : (allowedEvents.any fun allowed => allowed.toList == ev.eventType.toList) = true :=
    List.any_eq_true.mpr ⟨_, htype, beq_self_eq_true _⟩
  have hdata : dumps D (.obj ev.payload) ≠ [] := by
    rw [htext]
    exact List.cons_ne_nil _ _
  have h₄ : SseLines.line D
      { currentType := ev.eventType.toList
        currentId := Nat.toDigits 10 ev.sequence
        currentData := dumps D (.obj ev.payload) } [] = ([ev.toClient], {}) := by
    have hdispatch : SseLines.dispatch D
        { currentType := ev.eventType.toList
          currentId := Nat.toDigits 10 ev.sequence
          currentData := dumps D (.obj ev.payload) } = [ev.toClient] := by
      rw [SseLines.dispatch, if_pos ⟨hne, hdata⟩]
      simp only [jsonDecode_dumps ev.payload_wf, Json.toDart,
        AnalysisDomainEventModel.fromSseLine, hallowed, if_true,
        intTryParse_toDigits ev.sequence_lt, Option.getD_some]
      rfl
    have hempty : trim [] = [] := rfl
    simp only [SseLines.line, if_pos hempty, hdispatch]
  simp only [lines, SseLines.lines, h₁, h₂, h₃, h₄]
  rfl

end ServerEvent

/-- Events of allowed types are decoded. -/
theorem streamEvents_of_allowed {events : List (ServerEvent D)} {chunks : List (List ℕ)}
    (hevents : ∀ ev ∈ events, ev.eventType ∈ allowedEvents)
    (hchunks : chunks.flatten = streamAnalysisEvents events) :
    ({} : AnalysisSseClient).streamEvents D chunks = (events.map ServerEvent.toClient, true) := by
  have hbom : ∀ c ∈ (events.flatMap ServerEvent.frame).head?, c.toNat ≠ 0xFEFF := by
    intro c hc
    cases events with
    | nil => cases hc
    | cons ev events =>
      obtain rfl : c = 'e' := (Option.some.inj hc).symm
      decide
  obtain ⟨decoder, hfeed, hstate⟩ := Utf8Decoder.feed_utf8Bytes hbom
  have hdecoded := Utf8Decoder.feedAll_flatten (d := {}) chunks
  rw [hchunks, streamAnalysisEvents, hfeed] at hdecoded
  obtain ⟨⟨texts, d⟩, hall, heq⟩ := Option.map_eq_some_iff.mp hdecoded
  obtain ⟨htexts, rfl⟩ := Prod.mk.inj heq
  have hlines : ∀ events : List (ServerEvent D), (∀ ev ∈ events, ev.eventType ∈ allowedEvents) →
      ({} : SseLines).lines D (events.flatMap ServerEvent.lines) =
        (events.map ServerEvent.toClient, {}) := by
    intro events hevents
    induction events with
    | nil => rfl
    | cons ev events ih =>
      rw [List.flatMap_cons, SseLines.lines_append,
        ServerEvent.lines_event (hevents ev List.mem_cons_self),
        ih fun e he => hevents e (List.mem_cons_of_mem ev he)]
      rfl
  have hsplit : splitLines (events.flatMap ServerEvent.frame) =
      (events.flatMap ServerEvent.lines, []) := by
    have hframes : events.flatMap ServerEvent.frame =
        (events.flatMap ServerEvent.lines).flatMap (· ++ ['\n']) := by
      rw [List.flatMap_assoc]
      rfl
    rw [hframes, splitLines_lines]
    intro line hline
    obtain ⟨ev, hev, hline⟩ := List.mem_flatMap.mp hline
    exact ServerEvent.newline_notMem (hevents ev hev) line hline
  rw [@AnalysisSseClient.streamEvents_eq _ {} _ _ _ hall, hstate,
    SseLines.chunks_flatten (s := {}) rfl, htexts, SseLines.chunk, List.nil_append, hsplit]
  simp only [hlines events hevents]
  rfl

/-- **The stream** is decoded to the events, however it is cut into chunks. A chunk may end within
a character, within a line or between two frames. -/
theorem streamEvents_streamAnalysisEvents (D : DoubleText) (events : List (ServerEvent D))
    (chunks : List (List ℕ))
    (hevents : ∀ ev ∈ events, ev.eventType ∈ allowedEvents ∧ 1 ≤ ev.sequence)
    (hchunks : chunks.flatten = streamAnalysisEvents events) :
    ({} : AnalysisSseClient).streamEvents D chunks = (events.map ServerEvent.toClient, true) :=
  streamEvents_of_allowed (fun ev hev => (hevents ev hev).1) hchunks

/-- A text outside the basic plane, cut in the middle of its escape and read back. -/
theorem streamEvents_cut :
    let ev : ServerEvent .integral :=
      { eventType := "analysis.completed"
        sequence := 3
        payload := [("title".toList, .str "😀".toList), ("rows".toList, .arr [.int 12, .double (5 : ℤ)])]
        sequence_lt := by decide
        payload_wf :=
          ⟨by decide, trivial, ⟨by unfold Json.Wf; decide, trivial, trivial⟩, trivial⟩ }
    ({} : AnalysisSseClient).streamEvents .integral
      [(streamAnalysisEvents [ev]).take 54, (streamAnalysisEvents [ev]).drop 54] =
        ([ev.toClient], true) :=
  streamEvents_streamAnalysisEvents .integral [_] _
    (fun ev hev => by
      obtain rfl := List.mem_singleton.mp hev
      decide)
    (by simp)

end RoundTrip

end FinanceIntelligence
