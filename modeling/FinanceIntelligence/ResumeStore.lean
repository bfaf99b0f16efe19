import FinanceIntelligence.JsonText
import FinanceIntelligence.PrefixCodes
import FinanceIntelligence.Raising
import FinanceIntelligence.Utf8
import Mathlib.Data.Rat.Defs
import Mathlib.Data.Int.Notation

/-!
# The resume stores

`AnalysisResumeRecord` and its two stores: one keeps the JSON text of the record in
the shared preferences and validates what it reads, the other keeps the object.
Operations are awaited one after the other. The preferences return what was stored,
and JSON text decodes to what was encoded (`PrefsText`).
-/

namespace FinanceIntelligence

/-- A JSON value in the preferences. -/
abbrev PrefsJson := Json String ℚ

/-- A JSON object. -/
abbrev PrefsObject := List (String × PrefsJson)

/-- `jsonEncode` and `jsonDecode` of the preferences. -/
structure PrefsText where
  Text : Type
  /-- `text.isEmpty` -/
  isEmpty : Text → Bool
  /-- `jsonEncode(object)` -/
  encode : PrefsObject → Text
  /-- `jsonDecode(text) as Map<String, dynamic>`; `none` when that throws -/
  decode : Text → Option PrefsObject
  /-- what was encoded is decoded -/
  decode_encode : ∀ o, decode (encode o) = some o
  /-- the text of an object is not empty -/
  encode_ne : ∀ o, isEmpty (encode o) = false

/-- `AnalysisResumeRecord`. -/
structure AnalysisResumeRecord where
  resumeSchemaVersion : ℤ := 1
  analysisId : String
  lastAppliedSequence : ℤ
  lastEventId : Option String := none
  lifecycleStatus : String
  createdAt : String
  lastConnectedAt : String
  contractVersion : String := "3.0.0"
  sessionBindingFingerprint : String
deriving DecidableEq

/-- Why a record is not read. -/
inductive ResumeError where
  /-- "Unsupported resume schema version: …" -/
  | schemaVersion (value : Option PrefsJson)
  /-- "Unsupported contract version: …" -/
  | contractVersion (value : Option PrefsJson)
  /-- "Invalid analysisId in resume record" -/
  | analysisId
  /-- "Invalid lastAppliedSequence in resume record" -/
  | lastAppliedSequence
  /-- "Invalid sessionBindingFingerprint in resume record" -/
  | sessionBindingFingerprint
  /-- "Resume record checksum mismatch - possible partial write or corruption" -/
  | checksum
  /-- a cast failed -/
  | typeError

namespace PrefsObject

/-- `json[key]`; a missing field is `null`. -/
def get (o : PrefsObject) (key : String) : Option PrefsJson :=
  match o.find? fun (k, _) => k == key with
  | none | some (_, .null) => none
  | some (_, v) => some v

/-- `json.containsKey(key)`. -/
def containsKey (o : PrefsObject) (key : String) : Bool := o.any fun (k, _) => k == key

/-- `json[key] as String`. -/
def asString (o : PrefsObject) (key : String) : Except ResumeError String :=
  match o.get key with
  | some (.str s) => .ok s
  | _ => .error .typeError

/-- `json[key] as String?`. -/
def asString? (o : PrefsObject) (key : String) : Except ResumeError (Option String) :=
  match o.get key with
  | none => .ok none
  | some (.str s) => .ok (some s)
  | some _ => .error .typeError

/-- `json[key] as int?`. -/
def asInt? (o : PrefsObject) (key : String) : Except ResumeError (Option ℤ) :=
  match o.get key with
  | none => .ok none
  | some (.int n) => .ok (some n)
  | some _ => .error .typeError

end PrefsObject

namespace AnalysisResumeRecord

section

variable (sha256 : List ℕ → String)

/-- The text of a checksum. -/
def checksumText (analysisId : String) (sequence : ℤ) (status session : String) : List Char :=
  "resume_v1:".toList ++ (analysisId.toList ++ ':' :: (dumpInt sequence ++
    ':' :: (status.toList ++ ':' :: session.toList)))

/-- `raw` of `calculateChecksum`. -/
def raw (r : AnalysisResumeRecord) : List Char :=
  checksumText r.analysisId r.lastAppliedSequence r.lifecycleStatus r.sessionBindingFingerprint

/-- `calculateChecksum`. -/
def calculateChecksum (r : AnalysisResumeRecord) : String := sha256 (utf8Bytes r.raw)

/-- The fields of the record, with a checksum. -/
def toJsonWith (r : AnalysisResumeRecord) (checksum : String) : PrefsObject :=
  [("resumeSchemaVersion", .int r.resumeSchemaVersion),
    ("analysisId", .str r.analysisId),
    ("lastAppliedSequence", .int r.lastAppliedSequence),
    ("lastEventId", match r.lastEventId with
      | none => .null
      | some id => .str id),
    ("lifecycleStatus", .str r.lifecycleStatus),
    ("createdAt", .str r.createdAt),
    ("lastConnectedAt", .str r.lastConnectedAt),
    ("contractVersion", .str r.contractVersion),
    ("sessionBindingFingerprint", .str r.sessionBindingFingerprint),
    ("checksum", .str checksum)]

/-- `toJson`. -/
def toJson (r : AnalysisResumeRecord) : PrefsObject := r.toJsonWith (r.calculateChecksum sha256)

/-- `json['resumeSchemaVersion'] == 1`. -/
def isOne : Option PrefsJson → Bool
  | some (.int n) => n == 1
  | some (.double x) => x == 1
  | _ => false

/-- `json['contractVersion'] == "3.0.0"`. -/
def isCurrent : Option PrefsJson → Bool
  | some (.str s) => s == "3.0.0"
  | _ => false

/-- A check, or an error. -/
def require (ok : Bool) (e : ResumeError) : Except ResumeError Unit :=
  if ok then .ok () else .error e

/-- `json[key]` is a string that is not empty. -/
def requireText (o : PrefsObject) (key : String) (e : ResumeError) : Except ResumeError Unit :=
  match o.get key with
  | none => .error e
  | some (.str s) => if s = "" then .error e else .ok ()
  | some _ => .error .typeError

/-- `json[key]` is an integer that is not negative. -/
def requireNat (o : PrefsObject) (key : String) (e : ResumeError) : Except ResumeError ℤ :=
  match o.get key with
  | none => .error e
  | some (.int n) => if n < 0 then .error e else .ok n
  | some _ => .error .typeError

/-- The checksum, when there is one, is the record's. -/
def checkChecksum (o : PrefsObject) (r : AnalysisResumeRecord) : Except ResumeError Unit :=
  if o.containsKey "checksum" then
    match o.get "checksum" with
    | some (.str s) => if s = r.calculateChecksum sha256 then .ok () else .error .checksum
    | _ => .error .checksum
  else .ok ()

/-- `fromJson`. -/
def fromJson (o : PrefsObject) : Except ResumeError AnalysisResumeRecord := do
  require (isOne (o.get "resumeSchemaVersion")) (.schemaVersion (o.get "resumeSchemaVersion"))
  require (isCurrent (o.get "contractVersion")) (.contractVersion (o.get "contractVersion"))
  requireText o "analysisId" .analysisId
  let sequence ← requireNat o "lastAppliedSequence" .lastAppliedSequence
  requireText o "sessionBindingFingerprint" .sessionBindingFingerprint
  let r : AnalysisResumeRecord :=
    { resumeSchemaVersion := ((← o.asInt? "resumeSchemaVersion").getD 1)
      analysisId := (← o.asString "analysisId")
      lastAppliedSequence := sequence
      lastEventId := (← o.asString? "lastEventId")
      lifecycleStatus := ((← o.asString? "lifecycleStatus").getD "ACTIVE")
      createdAt := (← o.asString "createdAt")
      lastConnectedAt := (← o.asString "lastConnectedAt")
      contractVersion := ((← o.asString? "contractVersion").getD "3.0.0")
      sessionBindingFingerprint := (← o.asString "sessionBindingFingerprint") }
  checkChecksum sha256 o r
  return r

/-- A record that `fromJson` admits. -/
structure Valid (r : AnalysisResumeRecord) : Prop where
  schema : r.resumeSchemaVersion = 1
  contract : r.contractVersion = "3.0.0"
  analysis : r.analysisId ≠ ""
  sequence : 0 ≤ r.lastAppliedSequence
  session : r.sessionBindingFingerprint ≠ ""

end

/-- The record after `updateSequence`. -/
def advance (r : AnalysisResumeRecord) (sequence : ℤ) (eventId : Option String) (now : String) :
    AnalysisResumeRecord :=
  { r with
    lastAppliedSequence := sequence
    lastEventId := eventId <|> r.lastEventId
    lastConnectedAt := now }

end AnalysisResumeRecord

/-! ## The stores -/

/-- An operation of a store. -/
inductive ResumeOp where
  /-- `write(record)` -/
  | write (record : AnalysisResumeRecord)
  /-- `updateSequence(sequence, eventId)` -/
  | updateSequence (sequence : ℤ) (eventId : Option String)
  /-- `markTerminal()` -/
  | markTerminal
  /-- `clear()` -/
  | clear
  /-- `clearIfSessionMismatch(fingerprint)` -/
  | clearIfSessionMismatch (fingerprint : String)
  /-- `read()` -/
  | read

/-- An operation, and the time of the store's clock. -/
structure ResumeCall where
  /-- the operation -/
  op : ResumeOp
  /-- `DateTime.now()` -/
  now : String

namespace SharedPreferencesStore

variable (J : PrefsText) (sha256 : List ℕ → String)

/-- `read`: what it returns, and what is stored after it. -/
def read (raw : Option J.Text) : Option AnalysisResumeRecord × Option J.Text :=
  match raw with
  | none => (none, none)
  | some text =>
    if J.isEmpty text then (none, some text)
    else
      match J.decode text with
      | none => (none, none)
      | some o =>
        match AnalysisResumeRecord.fromJson sha256 o with
        | .ok record => (some record, some text)
        | .error _ => (none, none)

/-- `write`. -/
def write (record : AnalysisResumeRecord) : Option J.Text := some (J.encode (record.toJson sha256))

/-- `updateSequence`. -/
def updateSequence (raw : Option J.Text) (sequence : ℤ) (eventId : Option String) (now : String) :
    Option J.Text :=
  match read J sha256 raw with
  | (none, raw) => raw
  | (some current, raw) =>
    if sequence < current.lastAppliedSequence then raw
    else write J sha256 (current.advance sequence eventId now)

/-- `clearIfSessionMismatch`. -/
def clearIfSessionMismatch (raw : Option J.Text) (fingerprint : String) : Option J.Text :=
  match read J sha256 raw with
  | (none, raw) => raw
  | (some current, raw) => if current.sessionBindingFingerprint ≠ fingerprint then none else raw

/-- An operation: what it reads, if it is a `read`, and what is stored after it. -/
def step (raw : Option J.Text) (c : ResumeCall) :
    List (Option AnalysisResumeRecord) × Option J.Text :=
  match c.op with
  | .write record => ([], write J sha256 record)
  | .updateSequence sequence eventId => ([], updateSequence J sha256 raw sequence eventId c.now)
  | .markTerminal | .clear => ([], none)
  | .clearIfSessionMismatch fingerprint => ([], clearIfSessionMismatch J sha256 raw fingerprint)
  | .read => ([(read J sha256 raw).1], (read J sha256 raw).2)

/-- Operations, each awaited before the next. -/
def run (raw : Option J.Text) : List ResumeCall → List (Option AnalysisResumeRecord) × Option J.Text
  | [] => ([], raw)
  | c :: l =>
    let (out, raw) := step J sha256 raw c
    let (more, raw) := run raw l
    (out ++ more, raw)

end SharedPreferencesStore

namespace InMemoryStore

/-- An operation on the record that is kept. -/
def step (kept : Option AnalysisResumeRecord) (c : ResumeCall) :
    List (Option AnalysisResumeRecord) × Option AnalysisResumeRecord :=
  match c.op, kept with
  | .write record, _ => ([], some record)
  | .updateSequence _ _, none => ([], none)
  | .updateSequence sequence eventId, some current =>
    if sequence < current.lastAppliedSequence then ([], some current)
    else ([], some (current.advance sequence eventId c.now))
  | .markTerminal, _ | .clear, _ => ([], none)
  | .clearIfSessionMismatch _, none => ([], none)
  | .clearIfSessionMismatch fingerprint, some current =>
    if current.sessionBindingFingerprint ≠ fingerprint then ([], none) else ([], some current)
  | .read, kept => ([kept], kept)

/-- Operations, each awaited before the next. -/
def run (kept : Option AnalysisResumeRecord) :
    List ResumeCall → List (Option AnalysisResumeRecord) × Option AnalysisResumeRecord
  | [] => ([], kept)
  | c :: l =>
    let (out, kept) := step kept c
    let (more, kept) := run kept l
    (out ++ more, kept)

end InMemoryStore

/-! ## A stored record is read -/

section Read

variable {sha256 : List ℕ → String} {r : AnalysisResumeRecord} {o : PrefsObject} {key : String}
  {e : ResumeError}

open AnalysisResumeRecord

/-- A field that is cast to a string. -/
theorem PrefsObject.asString_eq_ok {s : String} :
    o.asString key = .ok s ↔ o.get key = some (.str s) := by
  unfold asString
  split <;> simp_all

/-- A field that is cast to a string or null. -/
theorem PrefsObject.asString?_eq_ok {s : Option String} :
    o.asString? key = .ok s ↔ o.get key = s.map Json.str := by
  unfold asString?
  split <;> cases s <;> simp_all

/-- A field that is cast to an integer or null. -/
theorem PrefsObject.asInt?_eq_ok {n : Option ℤ} :
    o.asInt? key = .ok n ↔ o.get key = n.map Json.int := by
  unfold asInt?
  split <;> cases n <;> simp_all

/-- A text that is required. -/
theorem AnalysisResumeRecord.requireText_eq_ok {u : Unit} :
    requireText o key e = .ok u ↔ ∃ s, o.get key = some (.str s) ∧ s ≠ "" := by
  unfold requireText
  split <;> simp_all

/-- A sequence that is required. -/
theorem AnalysisResumeRecord.requireNat_eq_ok {n : ℤ} :
    requireNat o key e = .ok n ↔ o.get key = some (.int n) ∧ 0 ≤ n := by
  unfold requireNat
  split <;> simp_all
  split <;> simp_all <;> omega

/-- The object `o` spells the record `r`. -/
structure AnalysisResumeRecord.Spelled (sha256 : List ℕ → String) (o : PrefsObject)
    (r : AnalysisResumeRecord) : Prop where
  /-- the schema is the integer 1 -/
  schema : o.get "resumeSchemaVersion" = some (.int 1)
  /-- the contract is the current one -/
  contract : o.get "contractVersion" = some (.str "3.0.0")
  analysis : o.get "analysisId" = some (.str r.analysisId)
  sequence : o.get "lastAppliedSequence" = some (.int r.lastAppliedSequence)
  event : o.get "lastEventId" = r.lastEventId.map Json.str
  /-- the status, which may be missing -/
  status : ∃ s : Option String, o.get "lifecycleStatus" = s.map Json.str ∧
    r.lifecycleStatus = s.getD "ACTIVE"
  /-- the creation time -/
  created : o.get "createdAt" = some (.str r.createdAt)
  /-- the last connection -/
  connected : o.get "lastConnectedAt" = some (.str r.lastConnectedAt)
  session : o.get "sessionBindingFingerprint" = some (.str r.sessionBindingFingerprint)
  /-- the record is admissible -/
  valid : r.Valid
  /-- the checksum, which may be missing -/
  checksum : o.containsKey "checksum" = true →
    o.get "checksum" = some (.str (r.calculateChecksum sha256))

/-- The checksum check. -/
theorem AnalysisResumeRecord.checkChecksum_eq_ok {u : Unit} :
    checkChecksum sha256 o r = .ok u ↔ (o.containsKey "checksum" = true →
      o.get "checksum" = some (.str (r.calculateChecksum sha256))) := by
  unfold checkChecksum
  split
  · split <;> simp_all
  · simp_all

/-- A check that succeeds. -/
theorem AnalysisResumeRecord.require_eq_ok {ok : Bool} {u : Unit} :
    require ok e = .ok u ↔ ok = true := by
  unfold require
  split <;> simp_all

/-- The schema is the integer 1. -/
theorem AnalysisResumeRecord.isOne_map {n : Option ℤ} :
    isOne (n.map Json.int) = true ↔ n = some 1 := by
  cases n <;> simp [isOne]

/-- The contract is the current one. -/
theorem AnalysisResumeRecord.isCurrent_map {s : Option String} :
    isCurrent (s.map Json.str) = true ↔ s = some "3.0.0" := by
  cases s <;> simp [isCurrent]

/-- `fromJson` reads exactly what an object spells. -/
theorem AnalysisResumeRecord.fromJson_eq_ok : fromJson sha256 o = .ok r ↔ Spelled sha256 o r := by
  simp only [fromJson, exceptBind_eq_ok, require_eq_ok, requireText_eq_ok, requireNat_eq_ok,
    PrefsObject.asString_eq_ok, PrefsObject.asString?_eq_ok, PrefsObject.asInt?_eq_ok,
    checkChecksum_eq_ok]
  constructor
  · rintro ⟨-, hone, -, hcurrent, -, ⟨a, ha, hne⟩, sequence, ⟨hsequence, hnat⟩, -, ⟨f, hf, hnf⟩,
      schema, hschema, analysisId, hanalysis, eventId, hevent, status, hstatus, created, hcreated,
      connected, hconnected, contract, hcontract, session, hsession, -, hchecksum, heq⟩
    rw [hschema, isOne_map] at hone
    rw [hcontract, isCurrent_map] at hcurrent
    subst hone hcurrent
    cases heq
    rw [hanalysis] at ha
    rw [hsession] at hf
    cases ha
    cases hf
    exact ⟨hschema, hcontract, hanalysis, hsequence, hevent, ⟨status, hstatus, rfl⟩, hcreated,
      hconnected, hsession, ⟨rfl, rfl, hne, hnat, hnf⟩, hchecksum⟩
  · obtain ⟨schema, analysisId, sequence, eventId, status, created, connected, contract,
      session⟩ := r
    rintro ⟨hschema, hcontract, hanalysis, hsequence, hevent, ⟨s, hs, rfl⟩, hcreated, hconnected,
      hsession, ⟨rfl, rfl, hne, hnat, hnf⟩, hchecksum⟩
    refine ⟨(), by rw [hschema]; rfl, (), by rw [hcontract]; rfl, (), ⟨_, hanalysis, hne⟩, sequence,
      ⟨hsequence, hnat⟩, (), ⟨_, hsession, hnf⟩, some 1, hschema, analysisId, hanalysis, eventId,
      hevent, s, hs, created, hcreated, connected, hconnected, some "3.0.0", hcontract, session,
      hsession, (), hchecksum, rfl⟩

/-- The fields of a valid record, with its checksum, spell it. -/
theorem AnalysisResumeRecord.Valid.spelled (h : r.Valid) : Spelled sha256 (r.toJson sha256) r where
  schema := by rw [toJson, toJsonWith, h.schema]; rfl
  contract := by rw [toJson, toJsonWith, h.contract]; rfl
  analysis := rfl
  sequence := rfl
  event := by rw [toJson, toJsonWith]; cases r.lastEventId <;> rfl
  status := ⟨some r.lifecycleStatus, rfl, rfl⟩
  created := rfl
  connected := rfl
  session := rfl
  valid := h
  checksum _ := rfl

/-- **A round trip.** `fromJson` admits `toJson` of a record exactly if the record is valid. -/
theorem AnalysisResumeRecord.fromJson_toJson :
    (∃ r', fromJson sha256 (r.toJson sha256) = .ok r') ↔ r.Valid := by
  constructor
  · rintro ⟨r', h⟩
    have hspelled := fromJson_eq_ok.mp h
    have hschema : some (Json.int r.resumeSchemaVersion) = some (.int 1) := hspelled.schema
    have hcontract : some (Json.str r.contractVersion) = some (.str "3.0.0") := hspelled.contract
    have hanalysis : some (Json.str r.analysisId) = some (.str r'.analysisId) := hspelled.analysis
    have hsequence : some (Json.int r.lastAppliedSequence) = some (.int r'.lastAppliedSequence) :=
      hspelled.sequence
    have hsession : some (Json.str r.sessionBindingFingerprint) =
        some (.str r'.sessionBindingFingerprint) := hspelled.session
    simp only [Option.some.injEq, Json.int.injEq, Json.str.injEq]
      at hschema hcontract hanalysis hsequence hsession
    exact ⟨hschema, hcontract, hanalysis ▸ hspelled.valid.analysis,
      hsequence ▸ hspelled.valid.sequence, hsession ▸ hspelled.valid.session⟩
  · intro h
    exact ⟨r, fromJson_eq_ok.mpr h.spelled⟩

/-- What is read after a valid record was stored. -/
theorem SharedPreferencesStore.read_encode {J : PrefsText} (h : r.Valid) :
    read J sha256 (some (J.encode (r.toJson sha256))) =
      (some r, some (J.encode (r.toJson sha256))) := by
  have hread := fromJson_eq_ok.mpr (Valid.spelled h : Spelled sha256 _ r)
  simp [read, J.encode_ne, J.decode_encode, hread]

end Read

/-! ## The two stores -/

section Agree

variable {J : PrefsText} {sha256 : List ℕ → String} {raw : Option J.Text}
  {kept : Option AnalysisResumeRecord}

/-- A record without its last connection. -/
def AnalysisResumeRecord.content (r : AnalysisResumeRecord) : AnalysisResumeRecord :=
  { r with lastConnectedAt := "" }

/-- An operation that the stores may be given: a record that `fromJson` admits, a sequence that
is not negative. -/
def ResumeOp.Admitted (sha256 : List ℕ → String) : ResumeOp → Prop
  | .write record => ∃ r, AnalysisResumeRecord.fromJson sha256 (record.toJson sha256) = .ok r
  | .updateSequence sequence _ => 0 ≤ sequence
  | _ => True

/-- A `write`. -/
def ResumeOp.isWrite : ResumeOp → Bool
  | .write _ => true
  | _ => false

/-- The stored text and the kept object hold the same valid record. -/
inductive Mirrors (J : PrefsText) (sha256 : List ℕ → String) :
    Option J.Text → Option AnalysisResumeRecord → Prop
  /-- both are empty -/
  | empty : Mirrors J sha256 none none
  /-- both hold a record -/
  | record {r r' : AnalysisResumeRecord} (valid : r.Valid) (same : r.content = r'.content) :
    Mirrors J sha256 (some (J.encode (r.toJson sha256))) (some r')

section

variable {r r' : AnalysisResumeRecord} (h : r.content = r'.content)

include h

/-- Records that agree are of one analysis. -/
theorem AnalysisResumeRecord.analysis_of_content : r.analysisId = r'.analysisId :=
  show r.content.analysisId = r'.content.analysisId by rw [h]

/-- Records that agree have one sequence. -/
theorem AnalysisResumeRecord.sequence_of_content : r.lastAppliedSequence = r'.lastAppliedSequence :=
  show r.content.lastAppliedSequence = r'.content.lastAppliedSequence by rw [h]

/-- Records that agree are of one session. -/
theorem AnalysisResumeRecord.session_of_content :
    r.sessionBindingFingerprint = r'.sessionBindingFingerprint :=
  show r.content.sessionBindingFingerprint = r'.content.sessionBindingFingerprint by rw [h]

/-- Records that agree still agree after an update, whatever the clocks say. -/
theorem AnalysisResumeRecord.content_advance {sequence : ℤ} {eventId : Option String}
    {now now' : String} :
    (r.advance sequence eventId now).content = (r'.advance sequence eventId now').content := by
  simp_all [content, advance]

end

/-- A valid record stays valid. -/
theorem AnalysisResumeRecord.Valid.advance {r : AnalysisResumeRecord} (h : r.Valid) {sequence : ℤ}
    (hsequence : 0 ≤ sequence) {eventId : Option String} {now : String} :
    (r.advance sequence eventId now).Valid :=
  ⟨h.schema, h.contract, h.analysis, hsequence, h.session⟩

/-- Reads agree. -/
theorem Mirrors.read (h : Mirrors J sha256 raw kept) :
    (SharedPreferencesStore.read J sha256 raw).2 = raw ∧
      ((SharedPreferencesStore.read J sha256 raw).1).map AnalysisResumeRecord.content =
        kept.map AnalysisResumeRecord.content := by
  cases h with
  | empty => exact ⟨rfl, rfl⟩
  | record valid same =>
    rw [SharedPreferencesStore.read_encode valid]
    exact ⟨rfl, congrArg some same⟩

/-- **A step.** The same operation on both stores reads the same, and leaves the same. -/
theorem Mirrors.step (h : Mirrors J sha256 raw kept) {c c' : ResumeCall} (hop : c.op = c'.op)
    (hadmitted : c.op.Admitted sha256) :
    ((SharedPreferencesStore.step J sha256 raw c).1.map
        (Option.map AnalysisResumeRecord.content) =
      (InMemoryStore.step kept c').1.map (Option.map AnalysisResumeRecord.content)) ∧
    Mirrors J sha256 (SharedPreferencesStore.step J sha256 raw c).2
      (InMemoryStore.step kept c').2 := by
  obtain ⟨op, now⟩ := c
  obtain ⟨op', now'⟩ := c'
  cases hop
  cases op with
  | write record =>
    exact ⟨rfl, .record (AnalysisResumeRecord.fromJson_toJson.mp hadmitted) rfl⟩
  | updateSequence sequence eventId =>
    cases h with
    | empty => exact ⟨rfl, .empty⟩
    | @record r r' valid same =>
      have hseq := AnalysisResumeRecord.sequence_of_content same
      simp only [SharedPreferencesStore.step, SharedPreferencesStore.updateSequence,
        SharedPreferencesStore.read_encode valid, InMemoryStore.step, hseq]
      by_cases hlt : sequence < r'.lastAppliedSequence
      · simp only [if_pos hlt]
        exact ⟨trivial, .record valid same⟩
      · simp only [if_neg hlt]
        exact ⟨trivial, .record (valid.advance hadmitted)
          (AnalysisResumeRecord.content_advance same)⟩
  | markTerminal => exact ⟨rfl, .empty⟩
  | clear => exact ⟨rfl, .empty⟩
  | clearIfSessionMismatch fingerprint =>
    cases h with
    | empty => exact ⟨rfl, .empty⟩
    | @record r r' valid same =>
      have hsession := AnalysisResumeRecord.session_of_content same
      simp only [SharedPreferencesStore.step, SharedPreferencesStore.clearIfSessionMismatch,
        SharedPreferencesStore.read_encode valid, InMemoryStore.step, hsession]
      by_cases hne : r'.sessionBindingFingerprint ≠ fingerprint
      · simp only [if_pos hne]
        exact ⟨trivial, .empty⟩
      · simp only [if_neg hne]
        exact ⟨trivial, .record valid same⟩
  | read =>
    obtain ⟨hraw, hread⟩ := h.read
    refine ⟨congrArg (fun x => [x]) hread, ?_⟩
    show Mirrors J sha256 (SharedPreferencesStore.read J sha256 raw).2 kept
    rw [hraw]
    exact h

/-- **A run.** The same operations on both stores, from stores that hold the same, read the same and
leave the same. -/
theorem Mirrors.run {calls calls' : List ResumeCall} (h : Mirrors J sha256 raw kept)
    (hops : calls.map ResumeCall.op = calls'.map ResumeCall.op)
    (hadmitted : ∀ c ∈ calls, c.op.Admitted sha256) :
    ((SharedPreferencesStore.run J sha256 raw calls).1.map
        (Option.map AnalysisResumeRecord.content) =
      (InMemoryStore.run kept calls').1.map (Option.map AnalysisResumeRecord.content)) ∧
    Mirrors J sha256 (SharedPreferencesStore.run J sha256 raw calls).2
      (InMemoryStore.run kept calls').2 := by
  induction calls generalizing raw kept calls' with
  | nil =>
    obtain rfl : calls' = [] := by simpa using hops.symm
    exact ⟨rfl, h⟩
  | cons c l ih =>
    obtain ⟨c', l', rfl, hc, hl⟩ := List.map_eq_cons_iff.mp hops.symm
    obtain ⟨hout, hnext⟩ := h.step hc.symm (hadmitted c List.mem_cons_self)
    obtain ⟨hmore, hlast⟩ := ih hnext hl.symm fun x hx => hadmitted x (List.mem_cons_of_mem _ hx)
    refine ⟨?_, hlast⟩
    simp only [SharedPreferencesStore.run, InMemoryStore.run, List.map_append]
    rw [hout, hmore]

/-- Two stores that were given the same calls. -/
theorem Mirrors.of_run {calls : List ResumeCall} (hadmitted : ∀ c ∈ calls, c.op.Admitted sha256) :
    Mirrors J sha256 (SharedPreferencesStore.run J sha256 none calls).2
      (InMemoryStore.run none calls).2 :=
  (Mirrors.empty.run (rfl : calls.map ResumeCall.op = calls.map ResumeCall.op) hadmitted).2

/-! ## Sequences -/

/-- Without a `write` the object keeps its analysis, and its sequence does not decrease. -/
theorem InMemoryStore.step_sequence {c : ResumeCall} (hwrite : c.op.isWrite = false)
    {r' : AnalysisResumeRecord} (h : (step kept c).2 = some r') :
    ∃ r, kept = some r ∧ r.analysisId = r'.analysisId ∧
      r.lastAppliedSequence ≤ r'.lastAppliedSequence := by
  obtain ⟨op, now⟩ := c
  cases kept with
  | none => cases op <;> simp_all [step, ResumeOp.isWrite]
  | some r =>
    refine ⟨r, rfl, ?_⟩
    cases op with
    | write record => cases hwrite
    | updateSequence sequence eventId =>
      simp only [step] at h
      split at h <;> cases h
      · exact ⟨rfl, Int.le_refl _⟩
      · exact ⟨rfl, by simp only [AnalysisResumeRecord.advance]; omega⟩
    | markTerminal => cases h
    | clear => cases h
    | clearIfSessionMismatch fingerprint =>
      simp only [step] at h
      split at h <;> cases h
      exact ⟨rfl, Int.le_refl _⟩
    | read =>
      cases h
      exact ⟨rfl, Int.le_refl _⟩

/-- Between writes the object keeps its analysis, and its sequence does not decrease. -/
theorem InMemoryStore.run_sequence {calls : List ResumeCall}
    (hwrite : ∀ c ∈ calls, c.op.isWrite = false) {r' : AnalysisResumeRecord}
    (h : (run kept calls).2 = some r') :
    ∃ r, kept = some r ∧ r.analysisId = r'.analysisId ∧
      r.lastAppliedSequence ≤ r'.lastAppliedSequence := by
  induction calls generalizing kept with
  | nil => exact ⟨r', h, rfl, Int.le_refl _⟩
  | cons c l ih =>
    obtain ⟨r₁, hr₁, hid₁, hseq₁⟩ := ih (fun x hx => hwrite x (List.mem_cons_of_mem _ hx)) h
    obtain ⟨r, hr, hid, hseq⟩ := step_sequence (hwrite c List.mem_cons_self) hr₁
    exact ⟨r, hr, hid.trans hid₁, Int.le_trans hseq hseq₁⟩

/-- Operations one after the other. -/
theorem InMemoryStore.run_append (l m : List ResumeCall) :
    (run kept (l ++ m)).2 = (run (run kept l).2 m).2 := by
  induction l generalizing kept with
  | nil => rfl
  | cons c l ih => exact ih

/-- What the two stores hold is read alike. -/
theorem Mirrors.of_read (h : Mirrors J sha256 raw kept) {r : AnalysisResumeRecord}
    (hread : (SharedPreferencesStore.read J sha256 raw).1 = some r) :
    ∃ r', kept = some r' ∧ r.content = r'.content := by
  have heq := h.read.2
  rw [hread] at heq
  cases kept with
  | none => cases heq
  | some r' => exact ⟨r', rfl, Option.some.inj heq⟩

end Agree

/-! ## Tampering -/

section Tamper

variable {J : PrefsText} {sha256 : List ℕ → String} {r r' : AnalysisResumeRecord}
  {o o' : PrefsObject}

/-- The value of a field; a lifecycle status that is `null` is read as "ACTIVE". -/
def PrefsObject.value (o : PrefsObject) (key : String) : Option PrefsJson :=
  if key = "lifecycleStatus" then some ((o.get key).getD (.str "ACTIVE")) else o.get key

/-- The fields that the checksum is computed from. -/
def checksumKeys : List String :=
  ["analysisId", "lastAppliedSequence", "lifecycleStatus", "sessionBindingFingerprint"]

/-- No text among these fields has a colon. -/
def PrefsObject.ColonFree (o : PrefsObject) : Prop :=
  ∀ key ∈ checksumKeys, ∀ s, o.value key = some (.str s) → ':' ∉ s.toList

/-- The text of the checksum of an object whose fields have their types. -/
def PrefsObject.raw (o : PrefsObject) : Option (List Char) :=
  match o.value "analysisId", o.value "lastAppliedSequence", o.value "lifecycleStatus",
    o.value "sessionBindingFingerprint" with
  | some (.str analysisId), some (.int sequence), some (.str status), some (.str session) =>
    some (AnalysisResumeRecord.checksumText analysisId sequence status session)
  | _, _, _, _ => none

/-- The texts of two objects are no collision. -/
def NoCollision (sha256 : List ℕ → String) (o o' : PrefsObject) : Prop :=
  ∀ x ∈ o.raw, ∀ x' ∈ o'.raw, sha256 (utf8Bytes x) = sha256 (utf8Bytes x') →
    utf8Bytes x = utf8Bytes x'

/-- `o'` is `o` with one of these fields changed to another value, and its checksum kept; other
fields may have changed too. -/
structure Tampered (o o' : PrefsObject) : Prop where
  /-- the checksum is kept -/
  checksum : o'.get "checksum" = o.get "checksum"
  /-- a field has another value -/
  value : ∃ key ∈ checksumKeys, o'.value key ≠ o.value key

/-- The text of a sequence has no colon. -/
theorem colon_not_mem_dumpInt {n : ℤ} : ':' ∉ dumpInt n := by
  have hdigits : ':' ∉ Nat.toDigits 10 n.natAbs := fun h =>
    absurd (Nat.isDigit_of_mem_toDigits (by omega) (by omega) h) (by decide)
  rw [dumpInt]
  split
  · simp [hdigits]
  · exact hdigits

/-- The text of a sequence tells the sequence. -/
theorem dumpInt_injective {m n : ℤ} (hm : 0 ≤ m) (hn : 0 ≤ n) (h : dumpInt m = dumpInt n) :
    m = n := by
  rw [dumpInt, dumpInt, if_neg (by omega), if_neg (by omega)] at h
  have hvalue := congrArg (fun l => Nat.ofDigitChars 10 l 0) h
  simp only [Nat.ofDigitChars_ten_toDigits] at hvalue
  omega

/-- **Colons separate.** The text of a checksum tells the fields. -/
theorem AnalysisResumeRecord.checksumText_injective {analysisId analysisId' status status' session
    session' : String} {sequence sequence' : ℤ}
    (h : checksumText analysisId sequence status session =
      checksumText analysisId' sequence' status' session')
    (hid : ':' ∉ analysisId.toList) (hid' : ':' ∉ analysisId'.toList)
    (hstatus : ':' ∉ status.toList) (hstatus' : ':' ∉ status'.toList)
    (hseq : 0 ≤ sequence) (hseq' : 0 ≤ sequence') :
    analysisId = analysisId' ∧ sequence = sequence' ∧ status = status' ∧ session = session' := by
  obtain ⟨hanalysis, hrest⟩ := append_cons_inj hid hid' (List.append_cancel_left h)
  obtain ⟨hnumber, hrest⟩ := append_cons_inj colon_not_mem_dumpInt colon_not_mem_dumpInt hrest
  obtain ⟨hlifecycle, hsession⟩ := append_cons_inj hstatus hstatus' hrest
  exact ⟨String.toList_injective hanalysis, dumpInt_injective hseq hseq' hnumber,
    String.toList_injective hlifecycle, String.toList_injective hsession⟩

/-- A field with a value is there. -/
theorem PrefsObject.containsKey_of_get {key : String} {v : PrefsJson} (h : o.get key = some v) :
    o.containsKey key = true := by
  rw [containsKey, List.any_eq_true]
  cases hfind : o.find? fun (k, _) => k == key with
  | none => simp [get, hfind] at h
  | some field =>
    have hkey := List.find?_some hfind
    exact ⟨field, List.mem_of_find?_eq_some hfind, hkey⟩

/-- The values of an object that spells a record. -/
theorem AnalysisResumeRecord.Spelled.value (h : Spelled sha256 o r) :
    o.value "analysisId" = some (.str r.analysisId) ∧
      o.value "lastAppliedSequence" = some (.int r.lastAppliedSequence) ∧
      o.value "lifecycleStatus" = some (.str r.lifecycleStatus) ∧
      o.value "sessionBindingFingerprint" = some (.str r.sessionBindingFingerprint) := by
  obtain ⟨s, hs, hstatus⟩ := h.status
  refine ⟨h.analysis, h.sequence, ?_, h.session⟩
  simp only [PrefsObject.value, if_true, hs, hstatus]
  cases s <;> rfl

/-- A record of which no text has a colon. -/
theorem AnalysisResumeRecord.colonFree_toJsonWith {checksum : String}
    (hid : ':' ∉ r.analysisId.toList) (hstatus : ':' ∉ r.lifecycleStatus.toList)
    (hsession : ':' ∉ r.sessionBindingFingerprint.toList) : (r.toJsonWith checksum).ColonFree := by
  intro key hkey s hs
  simp only [checksumKeys, List.mem_cons, List.not_mem_nil, or_false] at hkey
  obtain rfl | rfl | rfl | rfl := hkey
  · obtain rfl := Json.str.inj (Option.some.inj hs)
    exact hid
  · exact nomatch (Option.some.inj hs : Json.int r.lastAppliedSequence = Json.str s)
  · obtain rfl := Json.str.inj (Option.some.inj hs)
    exact hstatus
  · obtain rfl := Json.str.inj (Option.some.inj hs)
    exact hsession

/-- The text of an object that spells a record is the record's. -/
theorem AnalysisResumeRecord.Spelled.raw (h : Spelled sha256 o r) : o.raw = some r.raw := by
  obtain ⟨hanalysis, hsequence, hstatus, hsession⟩ := h.value
  rw [PrefsObject.raw, hanalysis, hsequence, hstatus, hsession]
  rfl

/-- **Tampering.** What is read from a tampered object does not pass the check. -/
theorem Tampered.not_spelled (h : Tampered o o') (ho : AnalysisResumeRecord.Spelled sha256 o r)
    (hchecksum : o.get "checksum" = some (.str (r.calculateChecksum sha256)))
    (hsha : NoCollision sha256 o o') (hcolon : o.ColonFree) (hother : o'.ColonFree) :
    ¬ AnalysisResumeRecord.Spelled sha256 o' r' := by
  intro ho'
  obtain ⟨hanalysis, hsequence, hstatus, hsession⟩ := ho.value
  obtain ⟨hanalysis', hsequence', hstatus', hsession'⟩ := ho'.value
  have hkept := ho'.checksum (PrefsObject.containsKey_of_get (h.checksum.trans hchecksum))
  rw [h.checksum, hchecksum] at hkept
  have heq : r.raw = r'.raw := by
    refine utf8Bytes_injective (hsha _ ho.raw _ ho'.raw ?_)
    exact Json.str.inj (Option.some.inj hkept)
  obtain ⟨hid, hseq, hlifecycle, hfingerprint⟩ := AnalysisResumeRecord.checksumText_injective heq
    (hcolon "analysisId" (by decide) _ hanalysis) (hother "analysisId" (by decide) _ hanalysis')
    (hcolon "lifecycleStatus" (by decide) _ hstatus)
    (hother "lifecycleStatus" (by decide) _ hstatus')
    ho.valid.sequence ho'.valid.sequence
  obtain ⟨key, hkey, hne⟩ := h.value
  simp only [checksumKeys, List.mem_cons, List.not_mem_nil, or_false] at hkey
  obtain rfl | rfl | rfl | rfl := hkey
  · exact hne (by rw [hanalysis, hanalysis', hid])
  · exact hne (by rw [hsequence, hsequence', hseq])
  · exact hne (by rw [hstatus, hstatus', hlifecycle])
  · exact hne (by rw [hsession, hsession', hfingerprint])

end Tamper

/-! ## The stores over a run -/

/-- **The resume stores.** The same operations, awaited one after the other on both stores from the
start, read the same but for `lastConnectedAt`; between writes the stored sequence of an analysis
does not decrease, in either store; and a stored record of which a checked field was changed, with
its checksum kept, is read as absent. -/
theorem resumeStores_agree (J : PrefsText) (sha256 : List ℕ → String)
    (calls : List ResumeCall) (hadmitted : ∀ c ∈ calls, c.op.Admitted sha256) :
    (∀ calls' : List ResumeCall, calls.map ResumeCall.op = calls'.map ResumeCall.op →
      (SharedPreferencesStore.run J sha256 none calls).1.map
          (Option.map AnalysisResumeRecord.content) =
        (InMemoryStore.run none calls').1.map (Option.map AnalysisResumeRecord.content)) ∧
    (∀ before between : List ResumeCall, calls = before ++ between →
      (∀ c ∈ between, c.op.isWrite = false) →
      (∀ r r', (SharedPreferencesStore.read J sha256
            (SharedPreferencesStore.run J sha256 none before).2).1 = some r →
          (SharedPreferencesStore.read J sha256
            (SharedPreferencesStore.run J sha256 none calls).2).1 = some r' →
        r.analysisId = r'.analysisId ∧ r.lastAppliedSequence ≤ r'.lastAppliedSequence) ∧
      ∀ r r', (InMemoryStore.run none before).2 = some r →
          (InMemoryStore.run none calls).2 = some r' →
        r.analysisId = r'.analysisId ∧ r.lastAppliedSequence ≤ r'.lastAppliedSequence) ∧
    ∀ text o o', (SharedPreferencesStore.run J sha256 none calls).2 = some text →
      J.decode text = some o → Tampered o o' → NoCollision sha256 o o' → o.ColonFree →
      o'.ColonFree →
      SharedPreferencesStore.read J sha256 (some (J.encode o')) = (none, none) := by
  refine ⟨?_, ?_, ?_⟩
  · intro calls' hops
    exact (Mirrors.empty.run hops hadmitted).1
  · rintro before between rfl hwrite
    have hkept : ∀ r r', (InMemoryStore.run none before).2 = some r →
        (InMemoryStore.run none (before ++ between)).2 = some r' →
        r.analysisId = r'.analysisId ∧ r.lastAppliedSequence ≤ r'.lastAppliedSequence := by
      intro r r' hr hr'
      rw [InMemoryStore.run_append] at hr'
      obtain ⟨r₀, hr₀, hle⟩ := InMemoryStore.run_sequence hwrite hr'
      rw [hr] at hr₀
      cases hr₀
      exact hle
    refine ⟨?_, hkept⟩
    intro r r' hr hr'
    have hbefore : ∀ c ∈ before, c.op.Admitted sha256 := fun c hc =>
      hadmitted c (List.mem_append_left _ hc)
    obtain ⟨k, hk, hsame⟩ := (Mirrors.of_run (J := J) hbefore).of_read hr
    obtain ⟨k', hk', hsame'⟩ := (Mirrors.of_run (J := J) hadmitted).of_read hr'
    obtain ⟨hid, hseq⟩ := hkept k k' hk hk'
    rw [AnalysisResumeRecord.analysis_of_content hsame,
      AnalysisResumeRecord.analysis_of_content hsame',
      AnalysisResumeRecord.sequence_of_content hsame,
      AnalysisResumeRecord.sequence_of_content hsame']
    exact ⟨hid, hseq⟩
  · intro text o o' htext hdecode htampered hsha hcolon hother
    have hmirrors := Mirrors.of_run (J := J) hadmitted
    rw [htext] at hmirrors
    generalize (InMemoryStore.run none calls).2 = kept at hmirrors
    cases hmirrors with
    | @record r r' valid same =>
      rw [J.decode_encode] at hdecode
      cases hdecode
      have hspelled : ∀ x, AnalysisResumeRecord.fromJson sha256 o' ≠ .ok x := fun x hx =>
        htampered.not_spelled valid.spelled rfl hsha hcolon hother
          (AnalysisResumeRecord.fromJson_eq_ok.mp hx)
      cases hread : AnalysisResumeRecord.fromJson sha256 o' with
      | ok x => exact absurd hread (hspelled x)
      | error e => simp [SharedPreferencesStore.read, J.encode_ne, J.decode_encode, hread]

/-! ### An update, and a tampered sequence -/

/-- Texts are objects. -/
def sampleTexts : PrefsText where
  Text := PrefsObject
  isEmpty _ := false
  encode o := o
  decode o := some o
  decode_encode _ := rfl
  encode_ne _ := rfl

/-- The digests of three texts. -/
def sampleSha256 (bytes : List ℕ) : String :=
  if bytes = utf8Bytes "resume_v1:a1b2:0:ACTIVE:c3d4".toList then
    "9c41b0f4c830997159bb3ff15a34facb3aed6674c370cebdd47f06c648fea711"
  else if bytes = utf8Bytes "resume_v1:a1b2:5:ACTIVE:c3d4".toList then
    "8fa5237009162c932b8f5f7a08137759307c419c9d1f5beb9d45f7ae4fb395f5"
  else if bytes = utf8Bytes "resume_v1:a1b2:9:ACTIVE:c3d4".toList then
    "31fc167c28cfa5e54c5514b69d56c3f14dbdd9f74178aca5ec6496fbf83f7c23"
  else ""

/-- The record of an analysis of which `sequence` events are applied. -/
def sampleRecord (sequence : ℤ) : AnalysisResumeRecord :=
  { analysisId := "a1b2"
    lastAppliedSequence := sequence
    lifecycleStatus := "ACTIVE"
    createdAt := "2026-01-01T00:00:00.000Z"
    lastConnectedAt := "2026-01-01T00:00:00.000Z"
    sessionBindingFingerprint := "c3d4" }

/-- A record is written, five events are applied, and the record is read. -/
def sampleCalls (now : String) : List ResumeCall :=
  [⟨.write (sampleRecord 0), now⟩, ⟨.updateSequence 5 (some "5"), now⟩, ⟨.read, now⟩]

/-- The record is admitted. -/
theorem valid_sampleRecord : (sampleRecord 0).Valid :=
  ⟨rfl, rfl, by decide, by decide, by decide⟩

/-- What is stored after these operations. -/
theorem sampleCalls_stored (now : String) :
    (SharedPreferencesStore.run sampleTexts sampleSha256 none (sampleCalls now)).2 =
      some (((sampleRecord 0).advance 5 (some "5") now).toJson sampleSha256) := by
  have hfirst : SharedPreferencesStore.read sampleTexts sampleSha256 _ = _ :=
    SharedPreferencesStore.read_encode valid_sampleRecord
  have hvalid : ((sampleRecord 0).advance 5 (some "5") now).Valid :=
    valid_sampleRecord.advance (by decide)
  have hsecond : SharedPreferencesStore.read sampleTexts sampleSha256 _ = _ :=
    SharedPreferencesStore.read_encode hvalid
  simp only [sampleCalls, SharedPreferencesStore.run, SharedPreferencesStore.step,
    SharedPreferencesStore.write, SharedPreferencesStore.updateSequence, hfirst]
  rw [if_neg (by decide)]
  simp only [hsecond]
  rfl

theorem resumeStores_agree_sample :
    (SharedPreferencesStore.run sampleTexts sampleSha256 none (sampleCalls "10:00")).1.map
        (Option.map AnalysisResumeRecord.content) =
      (InMemoryStore.run none (sampleCalls "10:01")).1.map
        (Option.map AnalysisResumeRecord.content) ∧
    SharedPreferencesStore.read sampleTexts sampleSha256
      (some ((sampleRecord 9).toJsonWith ((sampleRecord 5).calculateChecksum sampleSha256))) =
        (none, none) := by
  have hadmitted : ∀ c ∈ sampleCalls "10:00", c.op.Admitted sampleSha256 := by
    intro c hc
    simp only [sampleCalls, List.mem_cons, List.not_mem_nil, or_false] at hc
    obtain rfl | rfl | rfl := hc
    · exact AnalysisResumeRecord.fromJson_toJson.mpr valid_sampleRecord
    · exact (by decide : (0 : ℤ) ≤ 5)
    · trivial
  have hvalue : ∀ o o' : PrefsObject, o'.value "lastAppliedSequence" = some (.int 9) →
      o.value "lastAppliedSequence" = some (.int 5) →
      o'.value "lastAppliedSequence" ≠ o.value "lastAppliedSequence" := by
    intro o o' h' h
    simp [h, h']
  obtain ⟨hread, -, htampered⟩ := resumeStores_agree sampleTexts sampleSha256 _ hadmitted
  refine ⟨hread _ rfl, ?_⟩
  refine htampered _ _ _ (sampleCalls_stored _) rfl
    ⟨rfl, "lastAppliedSequence", by decide, hvalue _ _ rfl rfl⟩ ?_
    (AnalysisResumeRecord.colonFree_toJsonWith (by decide) (by decide) (by decide))
    (AnalysisResumeRecord.colonFree_toJsonWith (by decide) (by decide) (by decide))
  -- the digests of the two texts differ
  intro x hx x' hx' heq
  obtain rfl : "resume_v1:a1b2:5:ACTIVE:c3d4".toList = x := Option.some.inj hx
  obtain rfl : "resume_v1:a1b2:9:ACTIVE:c3d4".toList = x' := Option.some.inj hx'
  exact absurd heq (by decide +kernel)

end FinanceIntelligence
