import FinanceIntelligence.CandidateCreation
import FinanceIntelligence.GetOrCreate
import FinanceIntelligence.PrefixCodes

/-!
# Candidates of concurrent callers

`create_candidate` as a *get or create*: the digest of the idempotency key is taken to be
free of collisions, so that the unique constraint on `(organization_id,
idempotency_hash)` is one on the organization and the text that is hashed. That text joins
the label, the value and the location with colons, and leaves the metric code out.

* `figureText_eq_iff` — **without colons** in labels and values the text determines them;
* `candidates_distinct_iff` — two calls get one candidate exactly if their texts agree, and
  for every text there is one row, whatever the order of the callers.
-/

namespace FinanceIntelligence

open NormalizationService

namespace CandidateCreation

section

variable (U : CharClass) (T : TextCase)

/-- The label, the value and the location, as they are joined. -/
def figureText (args : CandidateArgs) : List Char :=
  strip U args.rawLabel ++ ':' :: strip U args.rawValue ++ ':' :: args.sourceLocation

end

variable {U : CharClass} {T : TextCase} {store : CandidateStore} {args : CandidateArgs}

/-- A new row is of its organization and its text. -/
theorem newRow_key {row : CandidateRow} (h : newRow U T store args = .ok row) :
    row.organizationId = args.organizationId ∧ row.idempotencyRaw = idempotencyRaw U args := by
  obtain ⟨-, _, _, _, _, _, -, -, -, -, -, rfl⟩ := newRow_eq_ok.mp h
  exact ⟨rfl, rfl⟩

/-- `financial_fact_candidates` under its unique constraint. -/
def candidateTable (U : CharClass) (T : TextCase) :
    GetOrCreate CandidateStore CandidateArgs (Uuid × List Char) CandidateRow where
  key args := (args.organizationId, idempotencyRaw U args)
  keyOf row := (row.organizationId, row.idempotencyRaw)
  create store args := (newRow U T store args).toOption
  keyOf_create := by
    intro store args row h
    have hrow : newRow U T store args = .ok row := by
      cases hnew : newRow U T store args with
      | error x => simp [hnew, Except.toOption] at h
      | ok row' => simpa [hnew, Except.toOption] using h
    obtain ⟨horganization, htext⟩ := newRow_key hrow
    exact Prod.ext horganization htext

/-- The candidates and the callers of `create_candidate`. -/
abbrev CandidateRace := RowRace CandidateStore CandidateArgs Uuid CandidateRow

/-- A call of `create_candidate` that has returned. -/
abbrev CandidateCall := CallAnswer CandidateStore CandidateArgs Uuid

/-- The tables as a caller sees them. -/
def tablesOf (s : CandidateRace) (c : RowCaller CandidateStore CandidateArgs Uuid CandidateRow) :
    CandidateStore :=
  { s.tables with rows := (s.visible c).map TableEntry.row }

/-- The candidate that is there is found. -/
theorem existing_eq {rows : List (TableEntry Uuid CandidateRow)} :
    existing U { store with rows := rows.map TableEntry.row } args =
      (RowRace.find (candidateTable U T) rows args).map TableEntry.row := by
  simp only [existing, RowRace.find, List.find?_map]
  congr 2
  funext e
  rw [Bool.eq_iff_iff]
  simp [candidateTable]

/-- **What a caller does** is `createCandidate` on the rows that it sees: its `SELECT` gives the row
that is there, or its `INSERT`, under any new primary key and unless it waits, the new one. -/
theorem act_createCandidate {s : CandidateRace}
    {c : RowCaller CandidateStore CandidateArgs Uuid CandidateRow} {p : ℕ}
    {todo : List CandidateArgs} {row : CandidateRow} {store' : CandidateStore}
    (hready : c.phase = .ready) (htodo : c.todo = args :: todo)
    (h : createCandidate U T (tablesOf s c) args = .ok (row, store')) :
    (∃ e ∈ s.visible c, e.row = row ∧
      s.act (candidateTable U T) c (.select p) = some (c.answer args s.tables e.id todo)) ∨
    s.act (candidateTable U T) c (.select p) = some { c with phase := .missed s.tables } ∧
      ∀ id, (args.organizationId, idempotencyRaw U args) ∉
          s.entries.map (fun e => (candidateTable U T).keyOf e.row) →
        id ∉ s.entries.map TableEntry.id →
        s.act (candidateTable U T) { c with phase := .missed s.tables } (.insert p id) =
          some { c.answer args s.tables id todo with pending := c.pending ++ [{ id, row }] } := by
  rw [createCandidate, tablesOf, existing_eq (T := T)] at h
  cases hfind : RowRace.find (candidateTable U T) (s.visible c) args with
  | some e =>
    rw [hfind] at h
    cases h
    refine .inl ⟨e, (RowRace.find_eq_some hfind).1, rfl, ?_⟩
    simp only [RowRace.act, hready, htodo, hfind]
  | none =>
    rw [hfind] at h
    refine .inr ⟨by simp only [RowRace.act, hready, htodo, hfind], fun id hkey hid => ?_⟩
    obtain ⟨row', hrow, heq⟩ := exceptMap_eq_ok.mp h
    cases heq
    have hcreate : (candidateTable U T).create s.tables args = some row :=
      congrArg Except.toOption (show newRow U T s.tables args = .ok row from hrow)
    have hkey' : (candidateTable U T).key args ∉
        s.entries.map (fun e => (candidateTable U T).keyOf e.row) := hkey
    obtain ⟨_, phase, pending, returned⟩ := c
    cases htodo
    have hfind' : RowRace.find (candidateTable U T)
        (s.visible { todo := args :: todo, phase := .missed s.tables, pending, returned }) args =
          none := hfind
    simp only [RowRace.act, hfind', if_neg hkey', if_neg hid, hcreate]
    rfl

/-! ## Distinct figures -/

/-- The metric code that the call resolves. -/
def resolvedCode (a : CandidateCall) : Option String :=
  (metricOf a.tables a.request).map (·.metricCode)

/-- The calls are of one organization and document version. -/
def SameVersion (a b : CandidateCall) : Prop :=
  a.request.organizationId = b.request.organizationId ∧
    a.request.sourceDocumentVersionId = b.request.sourceDocumentVersionId

/-- The figures of two calls differ. -/
def FiguresDiffer (U : CharClass) (a b : CandidateCall) : Prop :=
  strip U a.request.rawLabel ≠ strip U b.request.rawLabel ∨
    strip U a.request.rawValue ≠ strip U b.request.rawValue ∨
    a.request.sourceLocation ≠ b.request.sourceLocation ∨ resolvedCode a ≠ resolvedCode b

/-- In one document version the keys agree exactly if the joined texts do. -/
theorem key_eq_iff {a b : CandidateCall} (h : SameVersion a b) :
    (candidateTable U T).key a.request = (candidateTable U T).key b.request ↔
      figureText U a.request = figureText U b.request := by
  obtain ⟨horganization, hversion⟩ := h
  simp only [candidateTable, idempotencyRaw, figureText, horganization, hversion, Prod.mk.injEq,
    true_and, List.append_assoc, List.cons_append, List.append_cancel_left_eq, List.cons.injEq]

/-- **Without colons** in labels and values the joined text determines them. -/
theorem figureText_eq_iff {a b : CandidateArgs}
    (hlabel : ':' ∉ strip U a.rawLabel) (hvalue : ':' ∉ strip U a.rawValue)
    (hlabel' : ':' ∉ strip U b.rawLabel) (hvalue' : ':' ∉ strip U b.rawValue) :
    figureText U a = figureText U b ↔ strip U a.rawLabel = strip U b.rawLabel ∧
      strip U a.rawValue = strip U b.rawValue ∧ a.sourceLocation = b.sourceLocation := by
  constructor
  · intro h
    simp only [figureText, List.append_assoc, List.cons_append] at h
    obtain ⟨hl, h⟩ := append_cons_inj hlabel hlabel' h
    obtain ⟨hv, hlocation⟩ := append_cons_inj hvalue hvalue' h
    exact ⟨hl, hv, hlocation⟩
  · rintro ⟨hl, hv, hlocation⟩
    rw [figureText, figureText, hl, hv, hlocation]

/-- **Distinct figures.** In every run of concurrent callers, the calls of one document version
whose figures differ get distinct candidates exactly if their joined texts differ, which colons
and the metric code may prevent; and for a call of a committed transaction there is exactly one
row, which every call with the same arguments is given. -/
theorem candidates_distinct_iff (U : CharClass) (T : TextCase) (tables : CandidateStore)
    (acts : List (RaceAct CandidateStore CandidateArgs Uuid CandidateRow)) (s : CandidateRace)
    (hrun : runSteps (RowRace.step (candidateTable U T)) { tables } acts = some s) :
    (∀ p q, ∀ a ∈ s.answers p, ∀ b ∈ s.answers q, SameVersion a b → FiguresDiffer U a b →
      (a.id ≠ b.id ↔ figureText U a.request ≠ figureText U b.request)) ∧
    (∀ a b : CandidateArgs, ':' ∉ strip U a.rawLabel → ':' ∉ strip U a.rawValue →
      ':' ∉ strip U b.rawLabel → ':' ∉ strip U b.rawValue →
        (figureText U a = figureText U b ↔ strip U a.rawLabel = strip U b.rawLabel ∧
          strip U a.rawValue = strip U b.rawValue ∧ a.sourceLocation = b.sourceLocation)) ∧
    ∀ a ∈ s.answered,
      (∃! e, e ∈ s.committed ∧ e.row.organizationId = a.request.organizationId ∧
        e.row.idempotencyRaw = idempotencyRaw U a.request) ∧
      ∀ q, ∀ b ∈ s.answers q, b.request = a.request → b.id = a.id := by
  have h := Consistent.run hrun
  refine ⟨fun p q a ha b hb hversion _ => ?_, fun a b => figureText_eq_iff, fun a ha => ⟨?_, ?_⟩⟩
  · exact not_congr ((h.id_eq_iff ha hb).trans (key_eq_iff hversion))
  · simpa only [candidateTable, Prod.mk.injEq] using h.existsUnique ha
  · intro q b hb hsame
    exact (h.id_eq_iff hb (List.mem_append_left _ ha : a ∈ s.answers q)).mpr (hsame ▸ rfl)

/-! ### Two callers, and two metrics for one figure -/

/-- A figure of a document, and the metric that the caller resolved. -/
def figureArgs (metricCode : Option String) : CandidateArgs :=
  { thousandsArgs "1.234,56" with metricCode }

/-- Two callers with one figure: both see no row, and the second one inserts too late. -/
def lateInsert : List (RaceAct CandidateStore CandidateArgs Uuid CandidateRow) :=
  [.start [figureArgs none], .start [figureArgs none], .select 0, .select 1, .insert 0 10,
    .commit 0, .insert 1 11, .reread 1, .commit 1]

theorem candidates_distinct_race :
    ∃ s, runSteps (RowRace.step (candidateTable .ascii .ascii)) { tables := emptyStore }
        lateInsert = some s ∧
      s.committed.length = 1 ∧ s.answered.length = 2 ∧
      ∀ a ∈ s.answered, ∃! e, e ∈ s.committed ∧
        e.row.organizationId = a.request.organizationId ∧
        e.row.idempotencyRaw = idempotencyRaw .ascii a.request := by
  have hrun : (runSteps (RowRace.step (candidateTable .ascii .ascii)) { tables := emptyStore }
      lateInsert).map (fun s => (s.committed.length, s.answered.length)) = some (1, 2) := by
    decide +kernel
  obtain ⟨s, hs, heq⟩ := Option.map_eq_some_iff.mp hrun
  obtain ⟨hcommitted, hanswered⟩ := Prod.mk.inj heq
  refine ⟨s, hs, hcommitted, hanswered, fun a ha => ?_⟩
  exact ((candidates_distinct_iff .ascii .ascii emptyStore lateInsert s hs).2.2 a ha).1

/-- Two metrics, each known by its code. -/
def codedStore : CandidateStore where
  rows := []
  metricByCode code :=
    if code = "NET_PROFIT" then some ⟨21, code⟩
    else if code = "TOTAL_ASSETS" then some ⟨22, code⟩ else none
  matchMetricAlias _ _ := .ok none
  accepts _ := true

/-- One figure for two metrics. -/
def twoCodes : List (RaceAct CandidateStore CandidateArgs Uuid CandidateRow) :=
  [.start [figureArgs (some "NET_PROFIT"), figureArgs (some "TOTAL_ASSETS")], .select 0,
    .insert 0 10, .select 0, .commit 0]

/-- The second metric gets the candidate of the first. -/
theorem candidates_collapse : ¬ ∀ (U : CharClass) (T : TextCase) (tables : CandidateStore)
    (acts : List (RaceAct CandidateStore CandidateArgs Uuid CandidateRow)) (s : CandidateRace),
    runSteps (RowRace.step (candidateTable U T)) { tables } acts = some s →
      ∀ p q, ∀ a ∈ s.answers p, ∀ b ∈ s.answers q, SameVersion a b → FiguresDiffer U a b →
        a.id ≠ b.id := by
  intro hclaim
  have hrun : (runSteps (RowRace.step (candidateTable .ascii .ascii)) { tables := codedStore }
      twoCodes).map (fun s => s.answered.map fun a =>
        (a.id, resolvedCode a, a.request.organizationId, a.request.sourceDocumentVersionId)) =
      some [(10, some "NET_PROFIT", 1, 5), (10, some "TOTAL_ASSETS", 1, 5)] := by
    decide +kernel
  obtain ⟨s, hs, heq⟩ := Option.map_eq_some_iff.mp hrun
  obtain ⟨a, l, hanswered, ha, hl⟩ := List.map_eq_cons_iff.mp heq
  obtain ⟨b, m, rfl, hb, -⟩ := List.map_eq_cons_iff.mp hl
  simp only [Prod.mk.injEq] at ha hb
  have hmem : ∀ x ∈ a :: b :: m, x ∈ s.answers 0 := fun x hx =>
    List.mem_append_left _ (hanswered ▸ hx)
  refine hclaim .ascii .ascii codedStore twoCodes s hs 0 0 a (hmem a List.mem_cons_self) b
    (hmem b (List.mem_cons_of_mem _ List.mem_cons_self)) ?_ (.inr (.inr (.inr ?_)))
    (ha.1.trans hb.1.symm)
  · exact ⟨ha.2.2.1.trans hb.2.2.1.symm, ha.2.2.2.trans hb.2.2.2.symm⟩
  · rw [ha.2.1, hb.2.1]
    decide

end CandidateCreation

end FinanceIntelligence
