import FinanceIntelligence.CalculationIdentity
import FinanceIntelligence.Numbering
import FinanceIntelligence.StepRuns
import Mathlib.Data.Set.Function

/-!
# Calculations from before requests

The revision that introduces calculation requests and attempts fills the new tables from the
calculations that are there. It tells requests apart by the hash of a text that is not the one of
`compute_request_fingerprint`.

* `backfill_attempts` — the attempts of every request are **numbered from one on**;
* `shares_iff` — calculations share a request exactly if they have one organization and **one
  hash**;
* `laterRun_creates` — a later run of a request of the backfill **does not find it**;
* `keepsIdentity_iff` — the calculations keep their identity exactly if there are **none**.
-/

namespace FinanceIntelligence

namespace CalculationBackfill

/-! ## Rows -/

/-- A row of `calculations` before the revision. -/
structure LegacyCalculation where
  id : Uuid
  organizationId : Uuid
  institutionId : Uuid
  reportingPeriodId : Uuid
  comparisonPeriodId : Option Uuid
  formulaCode : List Char
  formulaVersion : List Char
  status : String
  idempotencyHash : String
  formulaSpecChecksum : Option String
  implementationChecksum : String
  requestedByUserId : Uuid
  errorCode : Option String
  /-- `created_at`, in microseconds -/
  createdAt : ℤ
  /-- `completed_at`, in microseconds -/
  completedAt : Option ℤ

/-- The table: `id` is its primary key. -/
structure LegacyTable where
  /-- the rows, in the order in which they are read -/
  rows : List LegacyCalculation
  /-- no two rows have one id -/
  ids : (rows.map LegacyCalculation.id).Nodup

/-- A row of `calculations` with the columns that the revision adds. -/
structure CalculationRow where
  /-- the columns that were there -/
  legacy : LegacyCalculation
  calculationRequestId : Option Uuid := none
  calculationAttemptId : Option Uuid := none

/-- A row of `calculation_requests`. -/
structure RequestRow where
  id : Uuid
  organizationId : Uuid
  requestFingerprint : List Char
  formulaCode : List Char
  formulaVersion : List Char
  institutionId : Uuid
  reportingPeriodId : Uuid
  comparisonPeriodId : Option Uuid
  comparisonPolicy : List Char
  requestedByUserId : Uuid
  /-- `created_at`, in microseconds -/
  createdAt : ℤ

/-- A row of `calculation_attempts`. -/
structure AttemptRow where
  id : Uuid
  organizationId : Uuid
  calculationRequestId : Uuid
  attemptNumber : ℕ
  executionIdempotencyHash : Option String
  status : String
  retryClassification : String
  errorCode : Option String
  formulaSpecChecksum : Option String
  implementationChecksum : Option String
  /-- `started_at`, in microseconds -/
  startedAt : ℤ
  /-- `completed_at`, in microseconds -/
  completedAt : Option ℤ
  /-- `created_at`, in microseconds -/
  createdAt : ℤ

/-- The tables that the backfill writes. -/
structure Tables where
  /-- `calculation_requests`, in insertion order -/
  requests : List RequestRow
  /-- `calculation_attempts`, in insertion order -/
  attempts : List AttemptRow
  calculations : List CalculationRow

/-! ## What is hashed -/

/-- An octal digit. -/
def octalDigit (b : ℕ) : Bool := 48 ≤ b && b ≤ 55

/-- `::bytea` of a text, given by its bytes: a backslash starts an escape. (The other format, which
starts with a backslash and an `x`, is not met: the text starts with an id.) -/
def bytea : List ℕ → Option (List ℕ)
  | [] => some []
  | b :: l =>
    if b ≠ 92 then (bytea l).map (b :: ·)
    else
      match l with
      | 92 :: l => (bytea l).map (92 :: ·)
      | x :: y :: z :: l =>
        if octalDigit x && x ≤ 51 && octalDigit y && octalDigit z then
          (bytea l).map (((x - 48) * 64 + (y - 48) * 8 + (z - 48)) :: ·)
        else none
      | _ => none

/-- `concat(…)` of the columns of the request. -/
def LegacyCalculation.requestText (c : LegacyCalculation) : List Char :=
  (uuidText c.organizationId).toList ++ c.formulaCode ++ c.formulaVersion ++
    (uuidText c.institutionId).toList ++ (uuidText c.reportingPeriodId).toList ++
    (c.comparisonPeriodId.elim [] fun id => (uuidText id).toList)

/-- What the backfill hashes. -/
def LegacyCalculation.hashedText (c : LegacyCalculation) : Option (List ℕ) :=
  bytea (utf8Bytes c.requestText)

/-- The arguments of `compute_request_fingerprint` that the calculation stands for. -/
def LegacyCalculation.request (c : LegacyCalculation) : CalculationIdentity.Request where
  organizationId := c.organizationId
  formulaCode := c.formulaCode
  formulaVersion := c.formulaVersion
  institutionId := c.institutionId
  reportingPeriodId := c.reportingPeriodId
  comparisonPeriodId := c.comparisonPeriodId
  comparisonPolicy := "PREVIOUS_PERIOD".toList

/-- The arguments of `compute_request_fingerprint` that a request stores. -/
def RequestRow.stored (r : RequestRow) : CalculationIdentity.Request where
  organizationId := r.organizationId
  formulaCode := r.formulaCode
  formulaVersion := r.formulaVersion
  institutionId := r.institutionId
  reportingPeriodId := r.reportingPeriodId
  comparisonPeriodId := r.comparisonPeriodId
  comparisonPolicy := r.comparisonPolicy

/-! ## The backfill -/

namespace Tables

variable (t : Tables)

/-- The request of an organization with a fingerprint, as the backfill and `run_calculation` select
it. -/
def findRequest (organizationId : Uuid) (fingerprint : List Char) : Option RequestRow :=
  t.requests.find? fun r =>
    r.organizationId == organizationId && r.requestFingerprint == fingerprint

/-- The attempts of a request. -/
def attemptsOf (organizationId requestId : Uuid) : List AttemptRow :=
  t.attempts.filter fun a =>
    a.organizationId == organizationId && a.calculationRequestId == requestId

/-- `COALESCE(MAX(attempt_number), 0) + 1`. -/
def nextAttemptNumber (organizationId requestId : Uuid) : ℕ :=
  ((t.attemptsOf organizationId requestId).map AttemptRow.attemptNumber).foldl max 0 + 1

/-- Insert a request; its id is the primary key. -/
def insertRequest (r : RequestRow) : Option Tables :=
  if t.requests.any fun x => x.id == r.id then none
  else some { t with requests := t.requests ++ [r] }

/-- Insert an attempt; its id is the primary key, and the statuses are listed. -/
def insertAttempt (a : AttemptRow) : Option Tables :=
  if t.attempts.any fun x => x.id == a.id then none
  else if a.status ∈ ["PENDING", "FAILED", "COMPLETED"] then
    some { t with attempts := t.attempts ++ [a] }
  else none

/-- `UPDATE public.calculations SET …  WHERE id = calc_row.id`. -/
def assign (calculationId requestId attemptId : Uuid) : Tables :=
  { t with calculations := t.calculations.map fun c =>
      if c.legacy.id = calculationId then
        { c with calculationRequestId := some requestId, calculationAttemptId := some attemptId }
      else c }

/-- The calculations that are not completed or have no request or attempt are deleted. -/
def deleteUnfinished : Tables :=
  { t with calculations := t.calculations.filter fun c =>
      c.legacy.status == "COMPLETED" && c.calculationRequestId.isSome &&
        c.calculationAttemptId.isSome }

end Tables

/-- The request that a calculation stands for. -/
def newRequest (c : LegacyCalculation) (fingerprint : List Char) (id : Uuid) : RequestRow where
  id := id
  organizationId := c.organizationId
  requestFingerprint := fingerprint
  formulaCode := c.formulaCode
  formulaVersion := c.formulaVersion
  institutionId := c.institutionId
  reportingPeriodId := c.reportingPeriodId
  comparisonPeriodId := c.comparisonPeriodId
  comparisonPolicy := "PREVIOUS_PERIOD".toList
  requestedByUserId := c.requestedByUserId
  createdAt := c.createdAt

/-- The attempt that a calculation stands for. -/
def newAttempt (c : LegacyCalculation) (id requestId : Uuid) (number : ℕ) : AttemptRow where
  id := id
  organizationId := c.organizationId
  calculationRequestId := requestId
  attemptNumber := number
  executionIdempotencyHash := if c.status = "COMPLETED" then some c.idempotencyHash else none
  status := c.status
  retryClassification := "NON_RETRIABLE"
  errorCode :=
    if c.status = "COMPLETED" then none
    else some (c.errorCode.getD "CALCULATION_INTERNAL_ERROR")
  formulaSpecChecksum := if c.status = "COMPLETED" then c.formulaSpecChecksum else none
  implementationChecksum := if c.status = "COMPLETED" then some c.implementationChecksum else none
  startedAt := c.createdAt
  completedAt := c.completedAt
  createdAt := c.createdAt

/-- `req_id`: the request with the fingerprint, or a new one. -/
def resolveRequest (t : Tables) (c : LegacyCalculation) (fingerprint : List Char) (id : Uuid) :
    Option (Uuid × Tables) :=
  match t.findRequest c.organizationId fingerprint with
  | some r => some (r.id, t)
  | none => (t.insertRequest (newRequest c fingerprint id)).map fun t => (id, t)

section Backfill

variable (sha256 : List ℕ → List Char) (draw : Uuid → Uuid × Uuid)

/-- The loop's body. `draw` gives the ids that are drawn for a row: for its request, should it need
a new one, and for its attempt. -/
def backfillRow (t : Tables) (c : LegacyCalculation) : Option Tables := do
  let text ← c.hashedText
  let (requestId, t) ← resolveRequest t c (sha256 text) (draw c.id).1
  let t ← t.insertAttempt
    (newAttempt c (draw c.id).2 requestId (t.nextAttemptNumber c.organizationId requestId))
  return t.assign c.id requestId (draw c.id).2

/-- The tables that the loop starts with. -/
def startTables (table : LegacyTable) : Tables :=
  ⟨[], [], table.rows.map fun c => { legacy := c }⟩

/-- The backfill; `none` if it raises. -/
def backfill (table : LegacyTable) : Option Tables :=
  (runSteps (backfillRow sha256 draw) (startTables table) table.rows).map Tables.deleteUnfinished

end Backfill

/-! ## One row -/

/-- `r` is the request of the calculation, by organization and hash. -/
def Belongs (sha256 : List ℕ → List Char) (c : LegacyCalculation) (r : RequestRow) : Prop :=
  r.organizationId = c.organizationId ∧ ∃ text, c.hashedText = some text ∧
    r.requestFingerprint = sha256 text

/-- How the request of a row is found: it is there, or it is appended. -/
inductive Resolves (t : Tables) (c : LegacyCalculation) (fingerprint : List Char) (id : Uuid) :
    RequestRow → List RequestRow → Prop
  | found {r : RequestRow} (hmem : r ∈ t.requests) (horg : r.organizationId = c.organizationId)
      (hfp : r.requestFingerprint = fingerprint) : Resolves t c fingerprint id r t.requests
  | created (hnone : ∀ x ∈ t.requests,
        ¬ (x.organizationId = c.organizationId ∧ x.requestFingerprint = fingerprint))
      (hid : ∀ x ∈ t.requests, x.id ≠ id) :
      Resolves t c fingerprint id (newRequest c fingerprint id)
        (t.requests ++ [newRequest c fingerprint id])

namespace Tables

variable {t t' : Tables}

theorem findRequest_eq_some {organizationId : Uuid} {fingerprint : List Char} {r : RequestRow}
    (h : t.findRequest organizationId fingerprint = some r) :
    r ∈ t.requests ∧ r.organizationId = organizationId ∧ r.requestFingerprint = fingerprint := by
  have hr := List.find?_some h
  rw [Bool.and_eq_true, beq_iff_eq, beq_iff_eq] at hr
  exact ⟨List.mem_of_find?_eq_some h, hr⟩

theorem findRequest_eq_none_iff {organizationId : Uuid} {fingerprint : List Char} :
    t.findRequest organizationId fingerprint = none ↔ ∀ x ∈ t.requests,
      ¬ (x.organizationId = organizationId ∧ x.requestFingerprint = fingerprint) := by
  simp only [findRequest, List.find?_eq_none, Bool.and_eq_true, beq_iff_eq]

theorem insertRequest_eq_some {r : RequestRow} (h : t.insertRequest r = some t') :
    (∀ x ∈ t.requests, x.id ≠ r.id) ∧ t' = { t with requests := t.requests ++ [r] } := by
  rw [insertRequest] at h
  split at h
  · cases h
  case isFalse hany =>
    refine ⟨fun x hx heq => hany (List.any_eq_true.mpr ⟨x, hx, beq_iff_eq.mpr heq⟩), ?_⟩
    exact (Option.some.inj h).symm

theorem insertAttempt_eq_some {a : AttemptRow} (h : t.insertAttempt a = some t') :
    t' = { t with attempts := t.attempts ++ [a] } := by
  rw [insertAttempt] at h
  split at h
  · cases h
  · split at h
    · exact (Option.some.inj h).symm
    · cases h

end Tables

theorem resolveRequest_eq_some {t t' : Tables} {c : LegacyCalculation} {fingerprint : List Char}
    {id requestId : Uuid} (h : resolveRequest t c fingerprint id = some (requestId, t')) :
    ∃ r requests, Resolves t c fingerprint id r requests ∧ requestId = r.id ∧
      t' = { t with requests } := by
  rw [resolveRequest] at h
  split at h
  case h_1 r hfind =>
    obtain ⟨hmem, horg, hfp⟩ := Tables.findRequest_eq_some hfind
    cases h
    exact ⟨r, t.requests, .found hmem horg hfp, rfl, rfl⟩
  case h_2 hfind =>
    obtain ⟨t'', hinsert, heq⟩ := Option.map_eq_some_iff.mp h
    cases heq
    obtain ⟨hid, rfl⟩ := Tables.insertRequest_eq_some hinsert
    exact ⟨_, _, .created (Tables.findRequest_eq_none_iff.mp hfind) hid, rfl, rfl⟩

section Step

variable {sha256 : List ℕ → List Char} {draw : Uuid → Uuid × Uuid} {t t' : Tables}
  {c : LegacyCalculation}

/-- **What the loop's body does**: the request is resolved, an attempt is appended and the
calculation refers to both. -/
theorem backfillRow_eq_some (h : backfillRow sha256 draw t c = some t') :
    ∃ text r requests, c.hashedText = some text ∧
      Resolves t c (sha256 text) (draw c.id).1 r requests ∧
      t' = Tables.assign
        { t with
          requests
          attempts := t.attempts ++ [newAttempt c (draw c.id).2 r.id
            (t.nextAttemptNumber c.organizationId r.id)] }
        c.id r.id (draw c.id).2 := by
  rw [backfillRow] at h
  simp only [Option.bind_eq_bind, Option.bind_eq_some_iff] at h
  obtain ⟨text, htext, ⟨requestId, t₁⟩, hresolve, t₂, hinsert, h⟩ := h
  obtain ⟨r, requests, hr, rfl, rfl⟩ := resolveRequest_eq_some hresolve
  obtain rfl := Tables.insertAttempt_eq_some hinsert
  exact ⟨text, r, requests, htext, hr, (Option.some.inj h).symm⟩

end Step

namespace Resolves

variable {sha256 : List ℕ → List Char} {t : Tables} {c : LegacyCalculation} {text : List ℕ}
  {fingerprint : List Char} {id : Uuid} {r : RequestRow} {requests : List RequestRow}

theorem mem (h : Resolves t c fingerprint id r requests) : r ∈ requests := by
  cases h with
  | found hmem => exact hmem
  | created => exact List.mem_append_right _ List.mem_cons_self

theorem subset (h : Resolves t c fingerprint id r requests) : t.requests ⊆ requests := by
  cases h with
  | found => exact fun _ hx => hx
  | created => exact List.subset_append_left _ _

theorem belongs (h : Resolves t c (sha256 text) id r requests) (htext : c.hashedText = some text) :
    Belongs sha256 c r := by
  cases h with
  | found hmem horg hfp => exact ⟨horg, text, htext, hfp⟩
  | created => exact ⟨rfl, text, htext, rfl⟩

/-- The requests that were not there. -/
theorem eq_or_mem (h : Resolves t c fingerprint id r requests) {x : RequestRow}
    (hx : x ∈ requests) : x ∈ t.requests ∨ x = newRequest c fingerprint id := by
  cases h with
  | found => exact .inl hx
  | created => simpa using hx

end Resolves

/-! ## Runs -/

/-- Two requests differ in their ids, and in organization or fingerprint. -/
def Differ (r r' : RequestRow) : Prop :=
  r.id ≠ r'.id ∧ ¬ (r.organizationId = r'.organizationId ∧
    r.requestFingerprint = r'.requestFingerprint)

/-- The attempts are numbered from one on. -/
def Numbered (l : List AttemptRow) : Prop :=
  l.map AttemptRow.attemptNumber = List.range' 1 l.length

/-- **What holds after every row.** -/
structure Backfilled (sha256 : List ℕ → List Char) (rows : List LegacyCalculation)
    (t : Tables) : Prop where
  /-- requests stand for calculations -/
  fromRow : ∀ r ∈ t.requests, ∃ c ∈ rows, ∃ text, c.hashedText = some text ∧
    r = newRequest c (sha256 text) r.id
  /-- requests differ -/
  differ : t.requests.Pairwise Differ
  /-- attempts are made at requests -/
  attempted : ∀ a ∈ t.attempts, ∃ r ∈ t.requests, r.id = a.calculationRequestId
  /-- the attempts of a request are numbered -/
  numbered : ∀ r ∈ t.requests, Numbered (t.attemptsOf r.organizationId r.id)
  /-- no calculation is added or removed -/
  calculations : t.calculations.map CalculationRow.legacy = rows
  /-- calculations refer to their requests -/
  assigned : ∀ c ∈ t.calculations, ∀ id, c.calculationRequestId = some id →
    ∃ r ∈ t.requests, r.id = id ∧ Belongs sha256 c.legacy r

theorem Numbered.next {l : List AttemptRow} (h : Numbered l) :
    (l.map AttemptRow.attemptNumber).foldl max 0 + 1 = l.length + 1 :=
  congrArg (· + 1) (Numbering.Counts.foldl_max h)

theorem Numbered.append {l : List AttemptRow} (h : Numbered l) {a : AttemptRow}
    (ha : a.attemptNumber = l.length + 1) : Numbered (l ++ [a]) :=
  Numbering.Counts.concat h ha

section Run

variable {sha256 : List ℕ → List Char} {draw : Uuid → Uuid × Uuid} {t t' : Tables}
  {c : LegacyCalculation} {rows : List LegacyCalculation}

theorem Resolves.differ {fingerprint : List Char} {id : Uuid} {r : RequestRow}
    {requests : List RequestRow} (h : Resolves t c fingerprint id r requests)
    (hdiffer : t.requests.Pairwise Differ) : requests.Pairwise Differ := by
  cases h with
  | found => exact hdiffer
  | created hnone hid =>
    refine List.pairwise_append.mpr ⟨hdiffer, List.pairwise_singleton _ _, ?_⟩
    rintro x hx _ (_ | ⟨_, ⟨⟩⟩)
    exact ⟨hid x hx, hnone x hx⟩

/-- Requests with one id are the same. -/
theorem eq_of_id_eq (h : Backfilled sha256 rows t) {r r' : RequestRow} (hr : r ∈ t.requests)
    (hr' : r' ∈ t.requests) (hid : r.id = r'.id) : r = r' :=
  List.inj_on_of_nodup_map (List.pairwise_map.mpr (h.differ.imp And.left)) hr hr' hid

/-- Requests of one organization with one fingerprint are the same. -/
theorem eq_of_fingerprint_eq (h : Backfilled sha256 rows t) {r r' : RequestRow}
    (hr : r ∈ t.requests) (hr' : r' ∈ t.requests) (horg : r.organizationId = r'.organizationId)
    (hfp : r.requestFingerprint = r'.requestFingerprint) : r = r' := by
  have hnodup : (t.requests.map fun r => (r.organizationId, r.requestFingerprint)).Nodup :=
    List.pairwise_map.mpr (h.differ.imp fun hne heq => hne.2 (Prod.mk.inj heq))
  exact List.inj_on_of_nodup_map hnodup hr hr' (Prod.ext horg hfp)

/-- The attempts of a request after one more. -/
theorem attemptsOf_append (a : AttemptRow) (requests : List RequestRow)
    (organizationId requestId : Uuid) :
    ({ t with requests, attempts := t.attempts ++ [a] } : Tables).attemptsOf organizationId
      requestId =
        t.attemptsOf organizationId requestId ++
          if a.organizationId = organizationId ∧ a.calculationRequestId = requestId then [a]
          else [] := by
  rw [Tables.attemptsOf, Tables.attemptsOf, List.filter_append, List.filter_cons, List.filter_nil]
  simp only [Bool.and_eq_true, beq_iff_eq]

/-- The attempts at the request of a row are numbered, also if there are none yet. -/
theorem Resolves.numbered {fingerprint : List Char} {id : Uuid} {r : RequestRow}
    {requests : List RequestRow} (h : Resolves t c fingerprint id r requests)
    (hinv : Backfilled sha256 rows t) : Numbered (t.attemptsOf r.organizationId r.id) := by
  cases h with
  | found hmem => exact hinv.numbered r hmem
  | created hnone hid =>
    have hnil : t.attemptsOf c.organizationId id = [] := by
      refine List.filter_eq_nil_iff.mpr fun a ha heq => ?_
      obtain ⟨x, hx, hxid⟩ := hinv.attempted a ha
      rw [Bool.and_eq_true, beq_iff_eq, beq_iff_eq] at heq
      exact hid x hx (hxid.trans heq.2)
    exact hnil ▸ rfl

theorem Resolves.mem_of_ne {fingerprint : List Char} {id : Uuid} {r x : RequestRow}
    {requests : List RequestRow} (h : Resolves t c fingerprint id r requests)
    (hx : x ∈ requests) (hne : x ≠ r) : x ∈ t.requests := by
  cases h with
  | found => exact hx
  | created =>
    refine (List.mem_append.mp hx).resolve_right fun hlast => hne ?_
    exact List.mem_singleton.mp hlast

/-- The attempts after a row. -/
theorem Resolves.numbered_append {fingerprint : List Char} {id attemptId : Uuid} {r x : RequestRow}
    {requests : List RequestRow} (h : Resolves t c fingerprint id r requests)
    (horg : r.organizationId = c.organizationId) (hinv : Backfilled sha256 rows t)
    (hx : x ∈ requests) :
    Numbered (({ t with
      requests
      attempts := t.attempts ++ [newAttempt c attemptId r.id
        (t.nextAttemptNumber c.organizationId r.id)] } : Tables).attemptsOf
          x.organizationId x.id) := by
  rw [attemptsOf_append]
  by_cases hxr : x = r
  · subst hxr
    rw [if_pos ⟨horg.symm, rfl⟩]
    refine (h.numbered hinv).append ?_
    rw [← (h.numbered hinv).next, horg]
    rfl
  · rw [if_neg fun heq => hxr ?_, List.append_nil]
    · exact hinv.numbered x (h.mem_of_ne hx hxr)
    · -- the ids of requests differ
      exact List.inj_on_of_nodup_map
        (List.pairwise_map.mpr ((h.differ hinv.differ).imp And.left)) hx h.mem heq.2.symm

theorem map_legacy_assign (calculationId requestId attemptId : Uuid) :
    (t.assign calculationId requestId attemptId).calculations.map CalculationRow.legacy =
      t.calculations.map CalculationRow.legacy := by
  rw [Tables.assign, List.map_map]
  refine List.map_congr_left fun x _ => ?_
  rw [Function.comp_apply]
  split <;> rfl

/-- **One row** keeps what holds. -/
theorem Backfilled.step (hids : (rows.map LegacyCalculation.id).Nodup) (hc : c ∈ rows)
    (hinv : Backfilled sha256 rows t) (h : backfillRow sha256 draw t c = some t') :
    Backfilled sha256 rows t' := by
  obtain ⟨text, r, requests, htext, hr, rfl⟩ := backfillRow_eq_some h
  have hbelongs := hr.belongs htext
  constructor
  · intro x hx
    rcases hr.eq_or_mem hx with hx | rfl
    · exact hinv.fromRow x hx
    · exact ⟨c, hc, text, htext, rfl⟩
  · exact hr.differ hinv.differ
  · intro a ha
    rcases List.mem_append.mp ha with ha | ha
    · obtain ⟨x, hx, hid⟩ := hinv.attempted a ha
      exact ⟨x, hr.subset hx, hid⟩
    · obtain rfl := List.mem_singleton.mp ha
      exact ⟨r, hr.mem, rfl⟩
  · exact fun x hx => hr.numbered_append hbelongs.1 hinv hx
  · exact (map_legacy_assign _ _ _).trans hinv.calculations
  · intro x hx id hid
    obtain ⟨x₀, hx₀, rfl⟩ := List.mem_map.mp hx
    have hrow : x₀.legacy ∈ rows := hinv.calculations ▸ List.mem_map_of_mem hx₀
    split at hid
    case isTrue heq =>
      rw [if_pos heq, List.inj_on_of_nodup_map hids hrow hc heq]
      exact ⟨r, hr.mem, Option.some.inj hid, hbelongs⟩
    case isFalse hne =>
      rw [if_neg hne]
      obtain ⟨y, hy, hyid, hyc⟩ := hinv.assigned x₀ hx₀ id hid
      exact ⟨y, hr.subset hy, hyid, hyc⟩

/-- **The loop** keeps what holds. -/
theorem Backfilled.run (hids : (rows.map LegacyCalculation.id).Nodup)
    {l : List LegacyCalculation} (hl : l ⊆ rows) (hinv : Backfilled sha256 rows t)
    (h : runSteps (backfillRow sha256 draw) t l = some t') : Backfilled sha256 rows t' := by
  induction l generalizing t with
  | nil => exact Option.some.inj h ▸ hinv
  | cons c l ih =>
    obtain ⟨s, hstep, hrun⟩ := runSteps_cons h
    obtain ⟨hc, hl⟩ := List.cons_subset.mp hl
    exact ih hl (hinv.step hids hc hstep) hrun

theorem backfilled_start (table : LegacyTable) :
    Backfilled sha256 table.rows (startTables table) where
  fromRow r hr := absurd hr List.not_mem_nil
  differ := .nil
  attempted a ha := absurd ha List.not_mem_nil
  numbered r hr := absurd hr List.not_mem_nil
  calculations := by
    rw [startTables, List.map_map]
    exact List.map_id _
  assigned c hc id hid := by
    obtain ⟨c, -, rfl⟩ := List.mem_map.mp hc
    cases hid

theorem backfill_eq_some {table : LegacyTable} (h : backfill sha256 draw table = some t) :
    ∃ t₀, runSteps (backfillRow sha256 draw) (startTables table) table.rows = some t₀ ∧
      Backfilled sha256 table.rows t₀ ∧ t = t₀.deleteUnfinished := by
  obtain ⟨t₀, hrun, rfl⟩ := Option.map_eq_some_iff.mp h
  exact ⟨t₀, hrun, (backfilled_start table).run table.ids (List.Subset.refl _) hrun, rfl⟩

/-- **The attempts of every request** are numbered from one on. -/
theorem backfill_attempts {table : LegacyTable} (h : backfill sha256 draw table = some t)
    {r : RequestRow} (hr : r ∈ t.requests) : Numbered (t.attemptsOf r.organizationId r.id) := by
  obtain ⟨t₀, -, hinv, rfl⟩ := backfill_eq_some h
  exact hinv.numbered r hr

/-- **Calculations share a request** exactly if they have one organization and one hash. -/
theorem shares_iff {table : LegacyTable} (h : backfill sha256 draw table = some t)
    {c c' : CalculationRow} (hc : c ∈ t.calculations) (hc' : c' ∈ t.calculations) :
    c.calculationRequestId = c'.calculationRequestId ↔
      c.legacy.organizationId = c'.legacy.organizationId ∧
        c.legacy.hashedText.map sha256 = c'.legacy.hashedText.map sha256 := by
  obtain ⟨t₀, -, hinv, rfl⟩ := backfill_eq_some h
  have hassigned : ∀ c ∈ t₀.deleteUnfinished.calculations,
      ∃ r ∈ t₀.requests, c.calculationRequestId = some r.id ∧ Belongs sha256 c.legacy r := by
    intro c hc
    obtain ⟨hmem, hkept⟩ := List.mem_filter.mp hc
    rw [Bool.and_eq_true, Bool.and_eq_true] at hkept
    obtain ⟨id, hid⟩ := Option.isSome_iff_exists.mp hkept.1.2
    obtain ⟨r, hr, rfl, hbelongs⟩ := hinv.assigned c hmem id hid
    exact ⟨r, hr, hid, hbelongs⟩
  obtain ⟨r, hr, hid, horg, text, htext, hfp⟩ := hassigned c hc
  obtain ⟨r', hr', hid', horg', text', htext', hfp'⟩ := hassigned c' hc'
  rw [hid, hid', ← horg, ← horg', htext, htext', Option.map_some, Option.map_some, ← hfp, ← hfp',
    Option.some_inj, Option.some_inj]
  constructor
  · intro heq
    obtain rfl := eq_of_id_eq hinv hr hr' heq
    exact ⟨rfl, rfl⟩
  · rintro ⟨horg, hfp⟩
    rw [eq_of_fingerprint_eq hinv hr hr' horg hfp]

/-- Nothing stands between the formula and its version, so calculations with other formulas can have
one hash. -/
theorem hashedText_shift (c : LegacyCalculation) (code text version : List Char) :
    { c with formulaCode := code ++ text, formulaVersion := version }.hashedText =
      { c with formulaCode := code, formulaVersion := text ++ version }.hashedText := by
  simp only [LegacyCalculation.hashedText, LegacyCalculation.requestText, List.append_assoc]

/-- Rows make requests. -/
theorem requests_ne_nil {l : List LegacyCalculation}
    (h : runSteps (backfillRow sha256 draw) t l = some t') (hl : l ≠ [] ∨ t.requests ≠ []) :
    t'.requests ≠ [] := by
  induction l generalizing t with
  | nil => exact Option.some.inj h ▸ hl.resolve_left (absurd rfl)
  | cons c l ih =>
    obtain ⟨s, hstep, hrun⟩ := runSteps_cons h
    obtain ⟨text, r, requests, -, hr, rfl⟩ := backfillRow_eq_some hstep
    exact ih hrun (.inr (List.ne_nil_of_mem hr.mem))

end Run

/-! ## The two texts -/

/-- The first byte of an id is a hexadecimal digit. -/
theorem uuidText_head (id : Uuid) : ∃ d < 16, ∃ l,
    (uuidText id).toList = Nat.digitChar d :: l := by
  refine ⟨id.toNat / 16 ^ 31 % 16, Nat.mod_lt _ (by decide), (uuidText id).toList.tail, ?_⟩
  rw [uuidText, String.toList_ofList]
  rfl

theorem digitChar_byte : ∀ d < 16, (Nat.digitChar d).toNat < 0x80 ∧
    (Nat.digitChar d).toNat ≠ 92 ∧ (Nat.digitChar d).toNat ≠ 123 := by
  decide

theorem bytea_cons {b : ℕ} {l : List ℕ} (hb : b ≠ 92) :
    bytea (b :: l) = (bytea l).map (b :: ·) := by
  rw [bytea.eq_def]
  exact if_pos hb

/-- What the backfill hashes does not start with a brace. -/
theorem hashedText_head {c : LegacyCalculation} {text : List ℕ} (h : c.hashedText = some text) :
    text.head? ≠ some 123 := by
  obtain ⟨d, hd, l, hl⟩ := uuidText_head c.organizationId
  obtain ⟨hascii, hbackslash, hbrace⟩ := digitChar_byte d hd
  rw [LegacyCalculation.hashedText, LegacyCalculation.requestText, hl] at h
  simp only [List.cons_append, utf8Bytes, List.flatMap_cons, utf8Char, if_pos hascii,
    List.nil_append] at h
  rw [bytea_cons hbackslash, Option.map_eq_some_iff] at h
  obtain ⟨rest, -, rfl⟩ := h
  exact fun heq => hbrace (Option.some.inj heq)

/-- What `compute_request_fingerprint` hashes starts with a brace. -/
theorem preimage_head (D : DoubleText) (r : CalculationIdentity.Request) :
    (r.preimage D).head? = some 123 := rfl

/-! ## The identity -/

section Identity

variable (D : DoubleText) (sha256 : List ℕ → List Char)

/-- `compute_request_fingerprint`. -/
def computeRequestFingerprint (r : CalculationIdentity.Request) : List Char :=
  sha256 (r.preimage D)

/-- What is hashed for the calculations: by the backfill, and by `compute_request_fingerprint`. -/
def hashedTexts (rows : List LegacyCalculation) : Set (List ℕ) :=
  {text | ∃ c ∈ rows, c.hashedText = some text ∨ text = c.request.preimage D}

/-- Calculations are about one request. -/
structure SameRequest (c c' : LegacyCalculation) : Prop where
  organizationId : c.organizationId = c'.organizationId
  formulaCode : c.formulaCode = c'.formulaCode
  formulaVersion : c.formulaVersion = c'.formulaVersion
  institutionId : c.institutionId = c'.institutionId
  reportingPeriodId : c.reportingPeriodId = c'.reportingPeriodId
  /-- the period to compare with -/
  comparisonPeriodId : c.comparisonPeriodId = c'.comparisonPeriodId

/-- **The calculations keep their identity.** -/
structure KeepsIdentity (t : Tables) : Prop where
  /-- calculations share a request exactly if they are about one -/
  shares : ∀ c ∈ t.calculations, ∀ c' ∈ t.calculations,
    c.calculationRequestId = c'.calculationRequestId ↔ SameRequest c.legacy c'.legacy
  /-- the attempts of every request are numbered -/
  numbered : ∀ r ∈ t.requests, Numbered (t.attemptsOf r.organizationId r.id)
  /-- the fingerprint of a request is that of its columns -/
  fingerprint : ∀ r ∈ t.requests, r.requestFingerprint =
    computeRequestFingerprint D sha256 r.stored
  /-- a later run finds the request -/
  laterRun : ∀ r ∈ t.requests, t.findRequest r.organizationId
    (computeRequestFingerprint D sha256 r.stored) = some r

variable {D sha256} {draw : Uuid → Uuid × Uuid} {table : LegacyTable} {t : Tables}

/-- No request of the backfill has a fingerprint that `compute_request_fingerprint` gives for a
calculation of the table. -/
theorem fingerprint_ne (hsha : Set.InjOn sha256 (hashedTexts D table.rows))
    (hinv : Backfilled sha256 table.rows t) {r r' : RequestRow} (hr : r ∈ t.requests)
    (hr' : r' ∈ t.requests) :
    r.requestFingerprint ≠ computeRequestFingerprint D sha256 r'.stored := by
  obtain ⟨c, hc, text, htext, hrow⟩ := hinv.fromRow r hr
  obtain ⟨c', hc', text', -, hrow'⟩ := hinv.fromRow r' hr'
  have hfp : r.requestFingerprint = sha256 text := by rw [hrow]; rfl
  have hstored : r'.stored = c'.request := by rw [hrow']; rfl
  rw [hfp, hstored]
  intro heq
  have htexts := hsha ⟨c, hc, .inl htext⟩ ⟨c', hc', .inr rfl⟩ heq
  exact hashedText_head htext (htexts ▸ preimage_head D c'.request)

/-- **A later run** of a request of the backfill does not find it. -/
theorem laterRun_creates (hsha : Set.InjOn sha256 (hashedTexts D table.rows))
    (h : backfill sha256 draw table = some t) {r : RequestRow} (hr : r ∈ t.requests) :
    t.findRequest r.organizationId (computeRequestFingerprint D sha256 r.stored) = none := by
  obtain ⟨t₀, -, hinv, rfl⟩ := backfill_eq_some h
  exact Tables.findRequest_eq_none_iff.mpr fun x hx heq => fingerprint_ne hsha hinv hx hr heq.2

/-- The tables of no calculations. -/
theorem keepsIdentity_nil : KeepsIdentity D sha256 ⟨[], [], []⟩ where
  shares _ hc := absurd hc List.not_mem_nil
  numbered _ hr := absurd hr List.not_mem_nil
  fingerprint _ hr := absurd hr List.not_mem_nil
  laterRun _ hr := absurd hr List.not_mem_nil

/-- Calculations lose their identity. -/
theorem not_keepsIdentity_of_rows (hsha : Set.InjOn sha256 (hashedTexts D table.rows))
    (h : backfill sha256 draw table = some t) (hne : table.rows ≠ []) :
    ¬ KeepsIdentity D sha256 t := by
  intro hkeeps
  obtain ⟨t₀, hrun, hinv, rfl⟩ := backfill_eq_some h
  obtain ⟨r, hr⟩ := List.exists_mem_of_ne_nil _ (requests_ne_nil hrun (.inl hne))
  exact fingerprint_ne hsha hinv hr hr (hkeeps.fingerprint r hr)

/-- **The calculations keep their identity** exactly if there are none, as long as no two of the
hashed texts collide. -/
theorem keepsIdentity_iff (hsha : Set.InjOn sha256 (hashedTexts D table.rows)) :
    (∃ t, backfill sha256 draw table = some t ∧ KeepsIdentity D sha256 t) ↔ table.rows = [] := by
  constructor
  · rintro ⟨t, h, hkeeps⟩
    by_contra hne
    exact not_keepsIdentity_of_rows hsha h hne hkeeps
  · intro hnil
    refine ⟨⟨[], [], []⟩, ?_, keepsIdentity_nil⟩
    rw [backfill, startTables, hnil]
    rfl

end Identity

/-! ## A calculation -/

/-- A completed calculation of the ratio of non-performing loans. -/
def nplCalculation : LegacyCalculation where
  id := 7
  organizationId := 1
  institutionId := 2
  reportingPeriodId := 3
  comparisonPeriodId := none
  formulaCode := "NPL_RATIO".toList
  formulaVersion := "1.0.0".toList
  status := "COMPLETED"
  idempotencyHash := "9f86d081884c7d659a2feaa0c55ad015a3bf4f1b2b0b822cd15d6c15b0f00a08"
  formulaSpecChecksum := none
  implementationChecksum := "ca34c38f6ae7ddda12772e256f866b2d710cb20c4077e969a45cc512a10818de"
  requestedByUserId := 4
  errorCode := none
  createdAt := 0
  completedAt := some 0

/-- A table with one row. -/
def nplTable : LegacyTable where
  rows := [nplCalculation]
  ids := List.nodup_singleton _

/-- The digests of the two texts that are hashed for the row. -/
def nplDigest (text : List ℕ) : List Char :=
  if text = nplCalculation.request.preimage .integral then
    "5977df6a14741c1d680d3485ebfbe672ab8c0af80b70ad17ed14decb75d62b91".toList
  else if nplCalculation.hashedText = some text then
    "77f7af2f9a9e6e5780b214e1bc2120b7430a5c4784814a04208f935f7652ec03".toList
  else []

theorem injOn_nplDigest : Set.InjOn nplDigest (hashedTexts .integral nplTable.rows) := by
  have hsql : ∀ text, nplCalculation.hashedText = some text → nplDigest text =
      "77f7af2f9a9e6e5780b214e1bc2120b7430a5c4784814a04208f935f7652ec03".toList := by
    intro text htext
    rw [nplDigest, if_neg, if_pos htext]
    rintro rfl
    exact hashedText_head htext (preimage_head _ _)
  have hjson : nplDigest (nplCalculation.request.preimage .integral) =
      "5977df6a14741c1d680d3485ebfbe672ab8c0af80b70ad17ed14decb75d62b91".toList := if_pos rfl
  have hne : nplDigest (nplCalculation.request.preimage .integral) ≠
      "77f7af2f9a9e6e5780b214e1bc2120b7430a5c4784814a04208f935f7652ec03".toList := by
    rw [hjson]
    decide
  rintro x ⟨c, hc, hx⟩ y ⟨c', hc', hy⟩ heq
  obtain rfl := List.mem_singleton.mp hc
  obtain rfl := List.mem_singleton.mp hc'
  rcases hx with hx | rfl <;> rcases hy with hy | rfl
  · exact Option.some.inj (hx.symm.trans hy)
  · exact absurd (heq.symm.trans (hsql x hx)) hne
  · exact absurd (heq.trans (hsql y hy)) hne
  · rfl

/-- `keepsIdentity_iff` at the calculation. -/
theorem keepsIdentity_nplTable :
    (∃ t, backfill nplDigest (fun id => (id + 1, id + 2)) nplTable = some t ∧
      KeepsIdentity .integral nplDigest t) ↔ nplTable.rows = [] :=
  keepsIdentity_iff injOn_nplDigest

/-- The backfill of the calculation finishes, and its identity is lost. -/
theorem loses_nplTable :
    ∃ t, backfill nplDigest (fun id => (id + 1, id + 2)) nplTable = some t ∧
      ¬ KeepsIdentity .integral nplDigest t := by
  have hsome : (backfill nplDigest (fun id => (id + 1, id + 2)) nplTable).isSome = true := by
    decide +kernel
  obtain ⟨t, ht⟩ := Option.isSome_iff_exists.mp hsome
  exact ⟨t, ht, not_keepsIdentity_of_rows injOn_nplDigest ht (List.cons_ne_nil _ _)⟩

end CalculationBackfill

end FinanceIntelligence
