import FinanceIntelligence.Datetime
import FinanceIntelligence.RequestPlan
import FinanceIntelligence.Utf8

/-!
# Command envelopes

`IngestionCommandEnvelope`: its canonical payload, its signature and its validation. Each of the
eight signed fields stands in the payload after its length, so **the payload tells the fields**
(`canonicalPayload_injective`), and an envelope that is accepted carries fields that were signed
(`CommandEnvelope.signed_of_accepted`).

HMAC-SHA256 is a parameter, as is what the secrets of the keys are.
-/

namespace FinanceIntelligence

/-! ## Python strings -/

/-- A character of a Python string: a character with an encoding, or a lone surrogate. -/
inductive PyChar where
  | scalar (c : Char)
  | surrogate (n : Fin 2048)
deriving DecidableEq

/-- A Python string. -/
abbrev PyStr := List PyChar

namespace PyStr

/-- The string of a literal. -/
def ofString (s : String) : PyStr := s.toList.map .scalar

/-- The characters, if none is a surrogate. -/
def scalars : PyStr → Option (List Char)
  | [] => some []
  | .scalar c :: s => (scalars s).map (c :: ·)
  | .surrogate _ :: _ => none

/-- `s.encode("utf-8")`, or a `UnicodeEncodeError`. -/
def encode (s : PyStr) : Option (List ℕ) := s.scalars.map utf8Bytes

/-- `s.isascii()`. -/
def isAscii (s : PyStr) : Bool :=
  s.all fun c =>
    match c with
    | .scalar c => c.toNat < 128
    | .surrogate _ => false

theorem eq_map_of_scalars {s : PyStr} {l : List Char} (h : s.scalars = some l) :
    s = l.map .scalar := by
  induction s generalizing l with
  | nil =>
    cases h
    rfl
  | cons c s ih =>
    cases c with
    | scalar c =>
      obtain ⟨l', hl', rfl⟩ := Option.map_eq_some_iff.mp h
      rw [ih hl', List.map_cons]
    | surrogate n => cases h

/-- The bytes tell the string. -/
theorem encode_injective {s t : PyStr} {bytes : List ℕ} (hs : s.encode = some bytes)
    (ht : t.encode = some bytes) : s = t := by
  obtain ⟨l, hl, hbytes⟩ := Option.map_eq_some_iff.mp hs
  obtain ⟨l', hl', rfl⟩ := Option.map_eq_some_iff.mp ht
  rw [eq_map_of_scalars hl, eq_map_of_scalars hl', utf8Bytes_injective hbytes]

theorem scalar_injective : Function.Injective PyChar.scalar := fun _ _ h => PyChar.scalar.inj h

end PyStr

/-- The hexadecimal digits of a UUID. -/
theorem map_range_digits (digit : ℕ → Char) (w n : ℕ) :
    (List.range w).map (fun i => digit (n / 16 ^ (w - 1 - i) % 16)) = padded 16 digit w n := by
  induction w generalizing n with
  | zero => rfl
  | succ w ih =>
    rw [List.range_succ, List.map_append, padded, ← ih]
    congr 1
    · refine List.map_congr_left fun i hi => ?_
      have hlt : i < w := List.mem_range.mp hi
      rw [Nat.div_div_eq_div_mul, ← Nat.pow_succ',
        show (w - 1 - i).succ = w + 1 - 1 - i by omega]
    · simp

/-- The groups of the digits of a UUID make up the digits. -/
theorem append_groups (l : List Char) : l.take 8 ++ ((l.drop 8).take 4 ++ ((l.drop 12).take 4 ++
    ((l.drop 16).take 4 ++ l.drop 20))) = l := by
  conv_rhs =>
    rw [← List.take_append_drop 8 l, ← List.take_append_drop 4 (l.drop 8),
      ← List.take_append_drop 4 ((l.drop 8).drop 4),
      ← List.take_append_drop 4 (((l.drop 8).drop 4).drop 4)]
  simp only [List.drop_drop]

/-- **The text tells the UUID.** -/
theorem uuidText_injective {u v : Uuid} (h : (uuidText u).toList = (uuidText v).toList) :
    u = v := by
  simp only [uuidText, String.toList_ofList, map_range_digits Nat.digitChar 32, List.append_assoc,
    List.cons_append] at h
  -- the five groups agree, and they make up the digits
  obtain ⟨h₁, h⟩ := List.append_inj h (by simp)
  obtain ⟨h₂, h⟩ := List.append_inj (List.cons.inj h).2 (by simp)
  obtain ⟨h₃, h⟩ := List.append_inj (List.cons.inj h).2 (by simp)
  obtain ⟨h₄, h⟩ := List.append_inj (List.cons.inj h).2 (by simp)
  have h₅ := (List.cons.inj h).2
  have hdigits : padded 16 Nat.digitChar 32 u.toNat = padded 16 Nat.digitChar 32 v.toNat := by
    rw [← append_groups (padded 16 Nat.digitChar 32 u.toNat),
      ← append_groups (padded 16 Nat.digitChar 32 v.toNat),
      h₁, h₂, h₃, h₄, h₅]
  have hlt : ∀ u : Uuid, u.toNat < 16 ^ 32 := fun u => by
    have := u.isLt
    omega
  exact BitVec.eq_of_toNat_eq (padded_injective (by omega) (by decide) (hlt u) (hlt v) hdigits)

/-! ## Envelopes -/

/-- `IngestionCommandEnvelope`. -/
structure CommandEnvelope where
  jobId : Uuid
  commandId : Uuid
  commandType : PyStr := .ofString "PROCESS_INGESTION_JOB"
  issuedAt : AwareDatetime
  expiresAt : AwareDatetime
  idempotencyKey : PyStr
  schemaVersion : PyStr := .ofString "2.0.0"
  keyId : PyStr := .ofString "key-v1"
  signature : PyStr := []

/-- What the methods of an envelope raise. -/
inductive EnvelopeError where
  /-- `InvalidCommandEnvelopeError`, with its code -/
  | invalidCommandEnvelope (code : String)
  /-- `OverflowError`: a time before the year 1 or after 9999 in UTC -/
  | overflow
  /-- `UnicodeEncodeError` -/
  | unicodeEncode
  /-- `TypeError`: a signature with characters that are not ASCII is not compared -/
  | nonAscii
deriving DecidableEq, Repr

/-- Two envelopes have the same signed fields; times are compared in UTC. -/
structure CommandEnvelope.SameFields (e g : CommandEnvelope) : Prop where
  schemaVersion : e.schemaVersion = g.schemaVersion
  commandId : e.commandId = g.commandId
  jobId : e.jobId = g.jobId
  commandType : e.commandType = g.commandType
  issuedAt : e.issuedAt.instant = g.issuedAt.instant
  expiresAt : e.expiresAt.instant = g.expiresAt.instant
  idempotencyKey : e.idempotencyKey = g.idempotencyKey
  keyId : e.keyId = g.keyId

namespace CommandEnvelope

/-- `get_canonical_payload`. -/
def getCanonicalPayload (e : CommandEnvelope) : Except EnvelopeError PyStr :=
  match e.issuedAt.astimezoneUTC, e.expiresAt.astimezoneUTC with
  | some issued, some expires =>
    .ok (joinPrefixed PyChar.scalar
      [e.schemaVersion, PyStr.ofString (uuidText e.commandId), PyStr.ofString (uuidText e.jobId),
        e.commandType, (isoText issued).map .scalar, (isoText expires).map .scalar,
        e.idempotencyKey, e.keyId])
  | _, _ => .error .overflow

/-- **The payload tells the fields**, whatever characters they have. -/
theorem canonicalPayload_injective {e g : CommandEnvelope} {payload : PyStr}
    (he : e.getCanonicalPayload = .ok payload) (hg : g.getCanonicalPayload = .ok payload) :
    e.SameFields g := by
  unfold getCanonicalPayload at he hg
  split at he
  · rename_i issued expires hissued hexpires
    split at hg
    · rename_i issued' expires' hissued' hexpires'
      have hjoin := (Except.ok.inj he).trans (Except.ok.inj hg).symm
      have hmap : ∀ {l l' : List Char}, l.map PyChar.scalar = l'.map PyChar.scalar → l = l' :=
        fun h => List.map_injective_iff.mpr PyStr.scalar_injective h
      have hparts := joinPrefixed_injective PyStr.scalar_injective hjoin
      simp only [List.cons.injEq, and_true] at hparts
      obtain ⟨hschema, hcommand, hjob, htype, hissue, hexpire, hkey, hkeyId⟩ := hparts
      obtain rfl := isoText_injective (hmap hissue)
      obtain rfl := isoText_injective (hmap hexpire)
      exact ⟨hschema, uuidText_injective (hmap hcommand), uuidText_injective (hmap hjob), htype,
        AwareDatetime.instant_eq_of_astimezoneUTC hissued hissued',
        AwareDatetime.instant_eq_of_astimezoneUTC hexpires hexpires', hkey, hkeyId⟩
    · cases hg
  · cases he

/-! ## Signatures -/

section Signatures

variable (hmacSha256 : List ℕ → List ℕ → List Char)

/-- What is signed: the bytes of the payload. -/
def message (e : CommandEnvelope) : Except EnvelopeError (List ℕ) :=
  e.getCanonicalPayload.bind fun payload =>
    match payload.encode with
    | some bytes => .ok bytes
    | none => .error .unicodeEncode

/-- `compute_signature`. -/
def computeSignature (e : CommandEnvelope) (secret : PyStr) : Except EnvelopeError PyStr :=
  if secret.isEmpty then .error (.invalidCommandEnvelope "COMMAND_KEY_UNAVAILABLE")
  else
    match e.getCanonicalPayload, secret.encode with
    | .error err, _ => .error err
    | .ok _, none => .error .unicodeEncode
    | .ok _, some key => e.message.map fun bytes => (hmacSha256 key bytes).map .scalar

/-- `is_expired`. -/
def isExpired (e : CommandEnvelope) (now : AwareDatetime) : Bool :=
  e.expiresAt.instant < now.instant

/-- `validate_envelope`; the `total_seconds()` of a difference exceed a whole number when the
microseconds do. -/
def validateEnvelope (secretResolver : PyStr → PyStr) (now : AwareDatetime) (maxSkewSeconds : ℕ)
    (e : CommandEnvelope) : Except EnvelopeError Unit :=
  if e.schemaVersion ≠ .ofString "2.0.0" then
    .error (.invalidCommandEnvelope "COMMAND_SCHEMA_REJECTED")
  else if e.commandType ≠ .ofString "PROCESS_INGESTION_JOB" then
    .error (.invalidCommandEnvelope "COMMAND_TYPE_INVALID")
  else if e.isExpired now then .error (.invalidCommandEnvelope "COMMAND_EXPIRED")
  else if maxSkewSeconds * 1000000 < (now.instant - e.issuedAt.instant).natAbs then
    .error (.invalidCommandEnvelope "COMMAND_CLOCK_SKEW")
  else if (secretResolver e.keyId).isEmpty then
    .error (.invalidCommandEnvelope "COMMAND_KEY_UNAVAILABLE")
  else
    (e.computeSignature hmacSha256 (secretResolver e.keyId)).bind fun expected =>
      if !e.signature.isAscii then .error .nonAscii
      else if e.signature = expected then .ok ()
      else .error (.invalidCommandEnvelope "COMMAND_SIGNATURE_INVALID")

/-- The signature on the envelope was not forged: if it is the HMAC of some message under the key
that the envelope names, somebody who has the key signed an envelope with this message.
`signed g secret` is that `g.compute_signature(secret)` was run. -/
def Unforged (secretResolver : PyStr → PyStr) (signed : CommandEnvelope → PyStr → Prop)
    (e : CommandEnvelope) : Prop :=
  ∀ key bytes, (secretResolver e.keyId).encode = some key →
    e.signature = (hmacSha256 key bytes).map .scalar →
    ∃ g secret, signed g secret ∧ secret.encode = some key ∧ g.message = .ok bytes

variable {hmacSha256}

theorem sameFields_of_message {e g : CommandEnvelope} {bytes : List ℕ}
    (he : e.message = .ok bytes) (hg : g.message = .ok bytes) : e.SameFields g := by
  have hpayload : ∀ {e : CommandEnvelope}, e.message = .ok bytes → ∃ payload,
      e.getCanonicalPayload = .ok payload ∧ payload.encode = some bytes := by
    intro e h
    rw [message] at h
    cases hp : e.getCanonicalPayload with
    | error err =>
      rw [hp] at h
      cases h
    | ok payload =>
      rw [hp, Except.bind] at h
      split at h
      · rename_i bytes' hbytes
        cases h
        exact ⟨payload, rfl, hbytes⟩
      · cases h
  obtain ⟨payload, hep, hbytes⟩ := hpayload he
  obtain ⟨payload', hgp, hbytes'⟩ := hpayload hg
  obtain rfl := PyStr.encode_injective hbytes hbytes'
  exact canonicalPayload_injective hep hgp

/-- An envelope that is accepted carries the HMAC of its message. -/
theorem signature_of_accepted {secretResolver : PyStr → PyStr} {now : AwareDatetime}
    {maxSkewSeconds : ℕ} {e : CommandEnvelope}
    (h : e.validateEnvelope hmacSha256 secretResolver now maxSkewSeconds = .ok ()) :
    ∃ key bytes, (secretResolver e.keyId).encode = some key ∧ e.message = .ok bytes ∧
      e.signature = (hmacSha256 key bytes).map .scalar := by
  simp only [validateEnvelope] at h
  iterate 5 split at h <;> [cases h; skip]
  cases hsig : e.computeSignature hmacSha256 (secretResolver e.keyId) with
  | error err =>
    rw [hsig] at h
    cases h
  | ok expected =>
    rw [hsig, Except.bind] at h
    split at h <;> [cases h; skip]
    split at h <;> [skip; cases h]
    rename_i heq
    rw [computeSignature] at hsig
    split at hsig <;> [cases hsig; skip]
    split at hsig
    · cases hsig
    · cases hsig
    · rename_i _ key _ hkey
      cases hm : e.message with
      | error err =>
        rw [hm] at hsig
        cases hsig
      | ok bytes =>
        rw [hm] at hsig
        cases hsig
        exact ⟨key, bytes, hkey, rfl, heq⟩

/-- **An envelope that is accepted carries the fields that were signed.** -/
theorem signed_of_accepted {secretResolver : PyStr → PyStr}
    {signed : CommandEnvelope → PyStr → Prop} {now : AwareDatetime} {maxSkewSeconds : ℕ}
    {e : CommandEnvelope} (hunforged : e.Unforged hmacSha256 secretResolver signed)
    (h : e.validateEnvelope hmacSha256 secretResolver now maxSkewSeconds = .ok ()) :
    ∃ g secret, signed g secret ∧ e.SameFields g := by
  obtain ⟨key, bytes, hkey, hmessage, hsignature⟩ := signature_of_accepted h
  obtain ⟨g, secret, hsigned, -, hg⟩ := hunforged key bytes hkey hsignature
  exact ⟨g, secret, hsigned, sameFields_of_message hmessage hg⟩

end Signatures

end CommandEnvelope

end FinanceIntelligence
