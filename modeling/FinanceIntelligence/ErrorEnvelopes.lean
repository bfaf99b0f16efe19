import FinanceIntelligence.ClientState
import FinanceIntelligence.AnalysisController
import Mathlib.Data.List.Infix

/-!
# Failures from the server to the client

The server answers an exception with an envelope (middleware/error_handler.py): a code, a message,
whether to try again, and details. The client makes an `AppException` of it
(`ErrorEnvelopeParser`, core/network/error_envelope_parser.dart) by its code, and of an answer
without an envelope by its status (`_safeCall`, data/api/api_client.dart).

* `envelope_received` — **every envelope arrives** that has not the status of a success: each field
  of it is a field of the exception.
* `httpException_received` — the detail of an `HTTPException` changes the message alone, and only if
  it is a text without a keyword; whatever it holds, the failure that is shown goes by the status.
-/

namespace FinanceIntelligence

variable {D : DoubleText}

/-! ## The server -/

/-- `BaseAPIException` (core/errors.py). -/
structure BaseAPIException (D : DoubleText) where
  code : List Char
  message : List Char
  statusCode : ℕ := 400
  details : List (PyJson D) := []

/-- `InvalidCredentialsException` -/
def invalidCredentialsException
    (message : List Char := "Invalid or expired authentication credentials.".toList) :
    BaseAPIException D where
  code := "INVALID_CREDENTIALS".toList
  message := message
  statusCode := 401

/-- `DevelopmentAuthDisabledException` -/
def developmentAuthDisabledException : BaseAPIException D where
  code := "DEVELOPMENT_AUTH_DISABLED".toList
  message := "Development authentication is strictly disabled in production mode.".toList
  statusCode := 403

/-- `MembershipRequiredException` -/
def membershipRequiredException (message : List Char :=
      "Active organization membership is required to access target resource.".toList) :
    BaseAPIException D where
  code := "MEMBERSHIP_REQUIRED".toList
  message := message
  statusCode := 403

/-- What an endpoint raises. -/
inductive Raised (D : DoubleText) where
  /-- an `HTTPException` -/
  | http (statusCode : ℕ) (detail : PyJson D)
  /-- a `BaseAPIException` -/
  | api (e : BaseAPIException D)
  /-- a `RequestValidationError`, with the field and the issue of each error -/
  | validation (errors : List (List Char × List Char))
  /-- anything else -/
  | other

/-- An answer with an envelope. -/
structure ErrorResponse (D : DoubleText) where
  statusCode : ℕ
  code : List Char
  message : List Char
  retryable : Bool := false
  details : List (PyJson D) := []

/-- `error_body` -/
def ErrorResponse.body (requestId : List Char) (r : ErrorResponse D) : PyJson D :=
  .obj [("error".toList, .obj [
    ("code".toList, .str r.code),
    ("message".toList, .str r.message),
    ("requestId".toList, .str requestId),
    ("retryable".toList, .bool r.retryable),
    ("details".toList, .arr r.details)])]

/-- `HTTP_STATUS_CODE_MAP` -/
def httpStatusCodeMap : List (ℕ × String × String × Bool) :=
  [(400, "BAD_REQUEST", "İstek parametreleri veya biçimi geçersiz.", false),
    (401, "UNAUTHENTICATED", "Geçerli kimlik doğrulaması gerekli.", false),
    (403, "FORBIDDEN", "Bu kaynağa erişim yetkiniz bulunmamaktadır.", false),
    (404, "NOT_FOUND", "İstenen kaynak bulunamadı.", false),
    (405, "METHOD_NOT_ALLOWED", "İstenen HTTP yöntemi bu uç nokta için desteklenmiyor.", false),
    (409, "CONFLICT", "İstek mevcut kaynak durumuyla çakışıyor.", false),
    (413, "FILE_TOO_LARGE", "Yüklenen dosya boyutu izin verilen sınırı aşıyor.", false),
    (415, "UNSUPPORTED_FILE_TYPE", "Yüklenen dosya türü desteklenmiyor.", false),
    (422, "UNPROCESSABLE_ENTITY", "İstek verileri işlenemedi.", false),
    (429, "RATE_LIMIT_EXCEEDED", "İstek sınırı aşıldı. Lütfen daha sonra tekrar deneyin.", true)]

/-- What is said of a status: its code, its message and whether to try again. -/
def httpStatus (statusCode : ℕ) : String × String × Bool :=
  (httpStatusCodeMap.lookup statusCode).getD
    ("HTTP_ERROR", "İstek işlenirken bir HTTP hatası oluştu.", false)

/-- The words that a message must not hold. -/
def secretKeywords : List String :=
  ["token", "secret", "traceback", "sql", "password", "authorization"]

/-- A word occurs in a text that has been lowered. -/
def anySecretKeyword {α : Type} [DecidableEq α] (encode : List Char → List α) (lower : List α) :
    Bool :=
  secretKeywords.any fun kw => encode kw.toList <:+: lower

/-- `safe_message`: a detail that is a text and holds no keyword. -/
def safeMessage (lower : List Char → List Char) (default : List Char) : PyJson D → List Char
  | .str detail =>
    if detail ≠ [] ∧ anySecretKeyword id (lower detail) = false then detail else default
  | _ => default

/-- The handlers, by the class of the exception; `lower` is `str.lower`. -/
def errorHandler (lower : List Char → List Char) : Raised D → ErrorResponse D
  -- `http_exception_handler`
  | .http statusCode detail => {
      statusCode := statusCode
      code := (httpStatus statusCode).1.toList
      message := safeMessage lower (httpStatus statusCode).2.1.toList detail
      retryable := (httpStatus statusCode).2.2 }
  -- `custom_api_exception_handler`
  | .api e => {
      statusCode := e.statusCode, code := e.code, message := e.message, details := e.details }
  -- `validation_exception_handler`
  | .validation errors => {
      statusCode := 422
      code := "VALIDATION_ERROR".toList
      message := "Request payload failed schema validation.".toList
      details := errors.map fun (field, issue) =>
        .obj [("field".toList, .str field), ("issue".toList, .str issue)] }
  -- `unhandled_exception_handler`
  | .other => {
      statusCode := 500
      code := "INTERNAL_SERVER_ERROR".toList
      message := "An unexpected internal server error occurred.".toList }

/-! ## The client -/

/-- An `AppException` of the client. -/
abbrev ClientException (D : DoubleText) := AppException DartString (DartJson D)

/-- The cases of `_mapCodeToException`. -/
def codeKinds : List (String × ExceptionKind) :=
  [("VALIDATION_ERROR", .validation),
    ("UNAUTHENTICATED", .authentication),
    ("EXPIRED_TOKEN", .authentication),
    ("INVALID_TOKEN", .authentication),
    ("ATTESTATION_FAILED", .attestation),
    ("INVALID_APP_CHECK", .attestation),
    ("FORBIDDEN", .authorization),
    ("PERMISSION_DENIED", .authorization),
    ("NOT_FOUND", .notFound),
    ("INSTITUTION_NOT_FOUND", .notFound),
    ("PERIOD_NOT_FOUND", .notFound),
    ("EVIDENCE_NOT_FOUND", .notFound),
    ("COMPARISON_NOT_FOUND", .notFound),
    ("RATE_LIMIT_EXCEEDED", .rateLimit),
    ("DATA_QUALITY_INVARIANT_VIOLATED", .dataQuality),
    ("CURRENCY_MISMATCH", .dataQuality),
    ("REPORTING_BASIS_MISMATCH", .dataQuality),
    ("UNIT_MISMATCH", .dataQuality),
    ("SCALE_NORMALIZATION_ERROR", .dataQuality),
    ("DATASET_SCHEMA_VERSION_UNSUPPORTED", .unsupportedContract),
    ("UNSUPPORTED_JOB_STATUS", .unsupportedContract),
    ("INTERNAL_SERVER_ERROR", .server),
    ("COMPARISON_INTERNAL_ERROR", .server),
    ("EVIDENCE_INTERNAL_ERROR", .server)]

/-- The class for a code. -/
def kindOfCode (code : DartString) : ExceptionKind :=
  ((codeKinds.find? fun (c, _) => dartString c == code).map (·.2)).getD .unknown

namespace ErrorEnvelopeParser

/-- `_mapCodeToException` -/
def mapCodeToException (code message requestId : DartString) (retryable : Bool)
    (details : List (DartJson D)) (statusCode : Option ℕ) : ClientException D where
  kind := kindOfCode code
  code := code
  message := message
  requestId := requestId
  -- a limit of requests can always be tried again
  retryable := kindOfCode code == .rateLimit || retryable
  details := details
  statusCode := statusCode

/-- `map[key]` -/
def field (m : List (DartString × DartJson D)) (key : String) : Option (DartJson D) :=
  (m.find? fun (k, _) => k == dartString key).map (·.2)

/-- `value as bool? ?? false`, unless it is something else. -/
def asBool : Option (DartJson D) → Option Bool
  | none | some .null => some false
  | some (.bool b) => some b
  | _ => none

/-- `(value as List<dynamic>?) ?? const []`, unless it is something else. -/
def asList : Option (DartJson D) → Option (List (DartJson D))
  | none | some .null => some []
  | some (.arr l) => some l
  | _ => none

/-- `_extractSafeDetail` -/
def extractSafeDetail (toLowerCase : DartString → DartString) : DartJson D → DartString
  | .str detail =>
    if detail ≠ [] ∧ anySecretKeyword utf16 (toLowerCase detail) = false then detail else []
  | _ => []

/-- A failure without details. -/
def failure (kind : ExceptionKind) (code message : String) (requestId : DartString)
    (statusCode : Option ℕ) (retryable : Bool := false) : ClientException D where
  kind := kind
  code := dartString code
  message := dartString message
  requestId := requestId
  retryable := retryable
  statusCode := statusCode

/-- The failures of an answer with a `detail` and without an envelope. -/
def ofDetail (safeDetail requestId : DartString) (statusCode : ℕ) : Option (ClientException D) :=
  let orElse (e : ClientException D) : ClientException D :=
    if safeDetail ≠ [] then { e with message := safeDetail } else e
  if statusCode = 401 then
    some (orElse (failure .authentication "UNAUTHENTICATED"
      "Oturum süreniz doldu. Lütfen tekrar giriş yapın." requestId (some statusCode)))
  else if statusCode = 403 then
    some (orElse (failure .authorization "FORBIDDEN"
      "Bu işlemi gerçekleştirme yetkiniz bulunmamaktadır." requestId (some statusCode)))
  else if statusCode = 404 then
    some (orElse (failure .notFound "NOT_FOUND" "İstenen kaynak bulunamadı." requestId
      (some statusCode)))
  else if statusCode = 413 then
    some (failure .validation "FILE_TOO_LARGE" "Yüklenen dosya boyutu izin verilen sınırı aşıyor."
      requestId (some statusCode))
  else if statusCode = 415 then
    some (failure .validation "UNSUPPORTED_FILE_TYPE"
      "Yüklenen dosya türü desteklenmiyor. Yalnızca PDF, XLSX ve CSV yüklenebilir." requestId
      (some statusCode))
  else if statusCode = 400 ∨ statusCode = 422 then
    some (orElse (failure .validation
      (if statusCode = 400 then "BAD_REQUEST" else "UNPROCESSABLE_ENTITY")
      "Gönderilen istek parametreleri geçersiz." requestId (some statusCode)))
  else none

/-- The failure of a status. -/
def ofStatus (requestId : DartString) (statusCode : Option ℕ) : ClientException D :=
  if statusCode.any (500 ≤ ·) then
    failure .server "INTERNAL_SERVER_ERROR"
      "Sunucuda beklenmeyen bir hata oluştu. Lütfen tekrar deneyin." requestId statusCode
  else if statusCode = some 400 then
    failure .validation "BAD_REQUEST" "İstek parametreleri veya biçimi geçersiz." requestId
      statusCode
  else if statusCode = some 401 then
    failure .authentication "UNAUTHENTICATED" "Oturum süreniz doldu. Lütfen tekrar giriş yapın."
      requestId statusCode
  else if statusCode = some 403 then
    failure .authorization "FORBIDDEN" "Bu işlemi gerçekleştirme yetkiniz bulunmamaktadır."
      requestId statusCode
  else if statusCode = some 404 then
    failure .notFound "NOT_FOUND" "İstenen kaynak bulunamadı." requestId statusCode
  else if statusCode = some 413 then
    failure .validation "FILE_TOO_LARGE" "Yüklenen dosya boyutu izin verilen sınırı aşıyor."
      requestId statusCode
  else if statusCode = some 415 then
    failure .validation "UNSUPPORTED_FILE_TYPE" "Yüklenen dosya türü desteklenmiyor." requestId
      statusCode
  else if statusCode = some 422 then
    failure .validation "UNPROCESSABLE_ENTITY"
      "Gönderilen istek verileri sunucu şemasıyla uyumsuz." requestId statusCode
  else if statusCode = some 429 then
    failure .rateLimit "RATE_LIMIT_EXCEEDED" "Çok fazla istek gönderildi. Lütfen bir süre bekleyin."
      requestId statusCode true
  else
    failure .unknown "UNEXPECTED_RESPONSE" "Sunucudan beklenmeyen bir yanıt alındı." requestId
      statusCode

/-- `parse`; nothing, if a field of the envelope has another type. -/
def parse (toLowerCase : DartString → DartString) (responseBody : Option (DartJson D))
    (statusCode : Option ℕ) (fallbackRequestId : DartString) : Option (ClientException D) :=
  match responseBody with
  | some (.obj m) =>
    match field m "error" with
    | some (.obj err) => do
      let retryable ← asBool (field err "retryable")
      let details ← asList (field err "details")
      pure (mapCodeToException ((textField err "code").getD (dartString "UNKNOWN_ERROR"))
        ((textField err "message").getD (dartString "Beklenmeyen bir hata oluştu."))
        ((textField err "requestId").getD fallbackRequestId) retryable details statusCode)
    | some _ => some (ofStatus fallbackRequestId statusCode)
    | none =>
      some ((do
        let rawDetail ← field m "detail"
        let status ← statusCode
        ofDetail (extractSafeDetail toLowerCase rawDetail) fallbackRequestId status).getD
          (ofStatus fallbackRequestId statusCode))
  | _ => some (ofStatus fallbackRequestId statusCode)

end ErrorEnvelopeParser

/-- `DioExceptionType` -/
inductive DioExceptionType where
  | connectionTimeout
  | sendTimeout
  | receiveTimeout
  | transformTimeout
  | connectionError
  | badCertificate
  | unknown
  | badResponse
  | cancel
deriving DecidableEq

/-- `DioException` -/
structure DioException (D : DoubleText) where
  type : DioExceptionType
  /-- the status and the data of `response` -/
  response : Option (Option ℕ × DartJson D) := none
  /-- the header `X-Request-ID` of the request -/
  requestId : Option DartString := none

/-- `mapTransportException` -/
def mapTransportException (type : DioExceptionType) (hasResponse : Bool) (requestId : DartString) :
    Option (ClientException D) :=
  let networkUnavailable : ClientException D := ErrorEnvelopeParser.failure .network
    "NETWORK_UNAVAILABLE"
    "Sunucuya bağlanılamadı. İnternet bağlantınızı kontrol edip tekrar deneyin." requestId none true
  match type with
  | .connectionTimeout | .sendTimeout | .receiveTimeout | .transformTimeout =>
    some (ErrorEnvelopeParser.failure .timeout "NETWORK_TIMEOUT"
      "Sunucu zamanında yanıt vermedi. Lütfen tekrar deneyin." requestId (some 408) true)
  | .connectionError | .badCertificate => some networkUnavailable
  | .unknown => if hasResponse then none else some networkUnavailable
  | .badResponse | .cancel => none

/-- How a call of the client fails. -/
inductive CallFailure (D : DoubleText) where
  /-- a `DioException` -/
  | dio (e : DioException D)
  /-- an `AppException` -/
  | app (e : ClientException D)
  /-- anything else, by its `toString()` -/
  | other (text : DartString)

/-- What `_safeCall` throws for a failure; `typeError` is what a cast in `parse` throws. -/
def safeCall (toLowerCase : DartString → DartString) (typeError : DartString) :
    CallFailure D → Thrown DartString (DartJson D)
  | .dio e =>
    let fallbackId := e.requestId.getD (dartString "unknown")
    match mapTransportException e.type e.response.isSome fallbackId with
    | some transportError => .app transportError
    | none =>
      match ErrorEnvelopeParser.parse toLowerCase (e.response.map (·.2))
          (e.response.bind (·.1)) fallbackId with
      | some parsed => .app parsed
      | none => .other typeError
  | .app e => .app e
  | .other text => .app {
      kind := .unknown
      code := dartString "UNEXPECTED_CLIENT_ERROR"
      message := text
      requestId := dartString "unknown" }

/-- The answer that the client gets. Dio takes one with a status from 200 to 299 for a success,
whatever its body, and fails on any other (`validateStatus`). -/
def ErrorResponse.received (requestId : List Char) (header : Option DartString)
    (r : ErrorResponse D) : Option (CallFailure D) :=
  if 200 ≤ r.statusCode ∧ r.statusCode < 300 then none
  else some (.dio ⟨.badResponse, some (some r.statusCode, (r.body requestId).toDart), header⟩)

/-! ## What arrives -/

theorem dartString_inj {a b : String} : dartString a = dartString b ↔ a = b :=
  utf16_injective.eq_iff.trans String.toList_inj

theorem dartString_beq (a b : String) : (dartString a == dartString b) = (a == b) := by
  rw [Bool.eq_iff_iff, beq_iff_eq, beq_iff_eq, dartString_inj]

theorem kindOfCode_dartString (c : String) : kindOfCode (dartString c) =
    ((codeKinds.find? fun (k, _) => k == c).map (·.2)).getD .unknown := by
  simp only [kindOfCode, dartString_beq]

namespace ErrorEnvelopeParser

theorem field_cons (k key : String) (v : DartJson D) (m : List (DartString × DartJson D)) :
    field ((dartString k, v) :: m) key = if k = key then some v else field m key := by
  simp only [field, List.find?_cons, dartString_beq]
  by_cases h : k = key
  · rw [if_pos h, beq_iff_eq.mpr h]
    rfl
  · rw [if_neg h, beq_eq_false_iff_ne.mpr h]

theorem textField_of_field (m : List (DartString × DartJson D)) (key : String) (text : DartString)
    (h : field m key = some (.str text)) : textField m key = some text := by
  obtain ⟨x, hx, htext⟩ := Option.map_eq_some_iff.mp h
  obtain ⟨k, v⟩ := x
  obtain rfl : v = .str text := htext
  unfold dartString at hx
  simp only [textField, hx]
  rfl

/-- **An envelope is read as it was written.** -/
theorem parse_body (toLowerCase : DartString → DartString) (r : ErrorResponse D)
    (requestId : List Char) (statusCode : Option ℕ) (fallbackRequestId : DartString) :
    parse toLowerCase (some (r.body requestId).toDart) statusCode fallbackRequestId =
      some (mapCodeToException (utf16 r.code) (utf16 r.message) (utf16 requestId) r.retryable
        (Json.toDartList r.details) statusCode) := by
  have herr : (r.body requestId).toDart = .obj [(dartString "error", .obj [
      (dartString "code", .str (utf16 r.code)), (dartString "message", .str (utf16 r.message)),
      (dartString "requestId", .str (utf16 requestId)),
      (dartString "retryable", .bool r.retryable),
      (dartString "details", .arr (Json.toDartList r.details))])] := by
    simp only [ErrorResponse.body, Json.toDart, Json.toDartFields, dartString]
  rw [herr, parse]
  simp only [field_cons, if_true]
  rw [textField_of_field _ "code" (utf16 r.code) (by simp [field_cons]),
    textField_of_field _ "message" (utf16 r.message) (by simp [field_cons]),
    textField_of_field _ "requestId" (utf16 requestId) (by simp [field_cons])]
  simp [asBool, asList]

end ErrorEnvelopeParser

section Received

variable (lower : List Char → List Char) (toLowerCase : DartString → DartString)
  (typeError : DartString) (requestId : List Char) (header : Option DartString)

theorem safeCall_received (r : ErrorResponse D)
    (hfails : ¬ (200 ≤ r.statusCode ∧ r.statusCode < 300)) :
    (r.received requestId header).map (safeCall toLowerCase typeError) =
      some (.app (ErrorEnvelopeParser.mapCodeToException (utf16 r.code) (utf16 r.message)
        (utf16 requestId) r.retryable (Json.toDartList r.details) (some r.statusCode))) := by
  simp only [safeCall, ErrorResponse.received, if_neg hfails, mapTransportException,
    Option.map_some, Option.bind_some, ErrorEnvelopeParser.parse_body]

/-- The class of the failure of an `HTTPException`. -/
def httpKind (statusCode : ℕ) : ExceptionKind :=
  if statusCode = 401 then .authentication
  else if statusCode = 403 then .authorization
  else if statusCode = 404 then .notFound
  else if statusCode = 429 then .rateLimit
  else .unknown

/-- A status with an entry of its own, and the others. -/
theorem httpStatus_cases (statusCode : ℕ) :
    (statusCode, httpStatus statusCode) ∈ httpStatusCodeMap ∨
      statusCode ∉ httpStatusCodeMap.map (·.1) ∧ httpStatus statusCode =
        ("HTTP_ERROR", "İstek işlenirken bir HTTP hatası oluştu.", false) := by
  unfold httpStatus
  cases h : httpStatusCodeMap.lookup statusCode with
  | some x =>
    obtain ⟨l₁, l₂, heq, -⟩ := List.lookup_eq_some_iff.mp h
    exact .inl (heq ▸ List.mem_append_right _ List.mem_cons_self)
  | none =>
    refine .inr ⟨fun hmem => ?_, rfl⟩
    obtain ⟨x, hx, hstatus⟩ := List.mem_map.mp hmem
    have hne := List.lookup_eq_none_iff.mp h x hx
    simp [hstatus] at hne

theorem kindOfCode_httpStatus (statusCode : ℕ) :
    kindOfCode (dartString (httpStatus statusCode).1) = httpKind statusCode := by
  rw [kindOfCode_dartString]
  rcases httpStatus_cases statusCode with hmem | ⟨hnot, heq⟩
  · have htable : ∀ x ∈ httpStatusCodeMap, ((codeKinds.find? fun (k, _) => k == x.2.1).map
        (·.2)).getD .unknown = httpKind x.1 := by decide
    exact htable _ hmem
  · rw [heq]
    have hne : statusCode ≠ 401 ∧ statusCode ≠ 403 ∧ statusCode ≠ 404 ∧ statusCode ≠ 429 := by
      refine ⟨?_, ?_, ?_, ?_⟩ <;> rintro rfl <;> exact hnot (by decide)
    simp only [httpKind, hne, if_false]
    decide

theorem retryable_httpStatus (statusCode : ℕ) :
    (httpStatus statusCode).2.2 = decide (httpKind statusCode = .rateLimit) := by
  rcases httpStatus_cases statusCode with hmem | ⟨hnot, heq⟩
  · have htable : ∀ x ∈ httpStatusCodeMap, x.2.2.2 = decide (httpKind x.1 = .rateLimit) := by decide
    exact htable _ hmem
  · rw [heq]
    have hne : statusCode ≠ 429 := by
      rintro rfl
      exact hnot (by decide)
    unfold httpKind
    rw [if_neg hne]
    split_ifs <;> rfl

/-- Only a limit of requests is answered with the advice to try again. -/
theorem retryable_errorHandler (e : Raised D) :
    ((kindOfCode (utf16 (errorHandler lower e).code) == .rateLimit) ||
      (errorHandler lower e).retryable) = true ↔
    kindOfCode (utf16 (errorHandler lower e).code) = .rateLimit := by
  cases e with
  | http statusCode detail =>
    change (kindOfCode (dartString (httpStatus statusCode).1) == .rateLimit ||
      (httpStatus statusCode).2.2) = true ↔ kindOfCode (dartString (httpStatus statusCode).1) = _
    rw [kindOfCode_httpStatus, retryable_httpStatus]
    simp
  | api | validation | other => simp [errorHandler]

/-- **Every envelope arrives.** Whatever the server raises, unless with the status of a success, the
client throws an `AppException` with the code, the message, the request id, the details and the
status of the envelope; the class goes by the code alone, and the client is told to try again only
in case of a limit of requests. -/
theorem envelope_received (e : Raised D) (hfails : ¬ (200 ≤ (errorHandler lower e).statusCode ∧
      (errorHandler lower e).statusCode < 300)) :
    ∃ x, ((errorHandler lower e).received requestId header).map (safeCall toLowerCase typeError) =
        some (.app x) ∧
      x.code = utf16 (errorHandler lower e).code ∧
      x.message = utf16 (errorHandler lower e).message ∧
      x.requestId = utf16 requestId ∧
      x.details = Json.toDartList (errorHandler lower e).details ∧
      x.statusCode = some (errorHandler lower e).statusCode ∧
      x.kind = kindOfCode (utf16 (errorHandler lower e).code) ∧
      (x.retryable = true ↔ x.kind = .rateLimit) :=
  ⟨_, safeCall_received _ _ _ _ _ hfails, rfl, rfl, rfl, rfl, rfl, rfl,
    retryable_errorHandler lower e⟩

/-- The client knows no class for the code of rejected credentials. -/
theorem envelope_received_invalidCredentials :
    ∃ x, ((errorHandler id (.api invalidCredentialsException : Raised .integral)).received
        "r-1".toList none).map (safeCall id (dartString "cast")) = some (.app x) ∧
      x.code = dartString "INVALID_CREDENTIALS" ∧ x.kind = .unknown ∧
      x.statusCode = some 401 := by
  obtain ⟨x, hx, hcode, -, -, -, hstatus, hkind, -⟩ := envelope_received id id (dartString "cast")
    "r-1".toList none (.api invalidCredentialsException : Raised .integral) (by decide)
  refine ⟨x, hx, hcode, hkind.trans ?_, hstatus⟩
  decide +kernel

/-- **What an `HTTPException` tells the client**, unless it has the status of a success. Code, class
and advice are those of the status. Its detail reaches the client exactly if it is a text, not empty
and without a keyword, and then as the message; so a detail that is an object, with a code of its
own, is lost. And apart from the statuses 401 and 403 what is shown is a terminal failure, never one
of validation or of the server. -/
theorem httpException_received (statusCode : ℕ) (detail : PyJson D)
    (hfails : ¬ (200 ≤ statusCode ∧ statusCode < 300)) :
    ∃ message, ((errorHandler lower (.http statusCode detail)).received requestId header).map
        (safeCall toLowerCase typeError) = some (.app {
          kind := httpKind statusCode
          code := dartString (httpStatus statusCode).1
          message := utf16 message
          requestId := utf16 requestId
          retryable := statusCode = 429
          statusCode := some statusCode }) ∧
      (httpKind statusCode).status = (if statusCode = 401 then .authFailure
        else if statusCode = 403 then .permissionFailure else .terminalFailure) ∧
      (message = (httpStatus statusCode).2.1.toList ∨
        detail = .str message ∧ message ≠ [] ∧ anySecretKeyword id (lower message) = false) ∧
      (∀ text, detail = .str text → text ≠ [] → anySecretKeyword id (lower text) = false →
        message = text) ∧
      ((∀ text, detail ≠ .str text) → message = (httpStatus statusCode).2.1.toList) := by
  refine ⟨safeMessage lower (httpStatus statusCode).2.1.toList detail, ?_, ?_, ?_, ?_, ?_⟩
  · rw [safeCall_received _ _ _ _ _ hfails]
    have hretryable : (httpKind statusCode == .rateLimit || (httpStatus statusCode).2.2) =
        decide (statusCode = 429) := by
      rw [retryable_httpStatus, Bool.eq_iff_iff]
      simp only [Bool.or_eq_true, beq_iff_eq, decide_eq_true_eq, httpKind]
      split_ifs <;> simp_all
    have hcode : utf16 (httpStatus statusCode).1.toList = dartString (httpStatus statusCode).1 := rfl
    simp only [ErrorEnvelopeParser.mapCodeToException, errorHandler, hcode, kindOfCode_httpStatus,
      hretryable, Json.toDartList]
  · unfold httpKind
    split_ifs <;> rfl
  · cases detail with
    | str text =>
      simp only [safeMessage]
      split
      next hclean => exact .inr ⟨rfl, hclean⟩
      next => exact .inl rfl
    | _ => exact .inl rfl
  · rintro text rfl hne hclean
    exact if_pos ⟨hne, hclean⟩
  · intro hnot
    cases detail with
    | str text => exact absurd rfl (hnot text)
    | _ => rfl

/-- A text arrives. -/
theorem httpException_received_notFound :
    ∃ message, ((errorHandler id (.http 404 (.str "Analiz yok.".toList) : Raised .integral)).received
        "r-1".toList none).map (safeCall id (dartString "cast")) = some (.app {
          kind := httpKind 404
          code := dartString (httpStatus 404).1
          message := utf16 message
          requestId := utf16 "r-1".toList
          retryable := (404 : ℕ) = 429
          statusCode := some 404 }) ∧ message = "Analiz yok.".toList := by
  obtain ⟨message, hthrown, -, -, htext, -⟩ := httpException_received id id (dartString "cast")
    "r-1".toList none 404 (.str "Analiz yok.".toList : PyJson .integral) (by decide)
  exact ⟨message, hthrown, htext _ rfl (by decide) (by decide +kernel)⟩

end Received

end FinanceIntelligence
