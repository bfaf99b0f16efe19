import FinanceIntelligence.SqlTable
import FinanceIntelligence.RequestPlan
import FinanceIntelligence.StateMachine
import Mathlib.Data.List.Nodup

/-!
# Lease recovery by the maintenance worker

`process_analysis_lease_recovery` against the table that the migrations build. The
handler names columns that no migration adds to `analysis_jobs`, so that it fails
on every content. With these columns it would still requeue a job with a status
that the `CHECK` of the table does not allow.

* `not_recovers` — so the recovery ends with a database error **always**.
-/

namespace FinanceIntelligence

open SqlExpr

/-! ## The table of the migrations -/

/-- `analysis_jobs` as `020_ai_orchestration_foundation` creates it. -/
def aiOrchestrationFoundation : SqlTable where
  columns := ["id", "organization_id", "user_id", "status", "request_prompt",
    "normalized_request", "created_at", "updated_at"]
  notNull := ["id", "organization_id", "user_id", "status", "request_prompt",
    "normalized_request", "created_at", "updated_at"]
  checks := [("chk_analysis_job_status", .isIn (column "status") (List.map SqlValue.text
    ["RECEIVED", "UNDERSTANDING_REQUEST", "PLANNING", "POLICY_CHECK",
      "RETRIEVING_INTERNAL_SOURCES", "VALIDATING_SOURCES", "EXECUTING_TOOLS",
      "RECONCILING_RESULTS", "GENERATING_STRUCTURED_RESULT", "QUALITY_GATE", "COMPLETED",
      "NEEDS_CLARIFICATION", "REJECTED_BY_POLICY", "FAILED", "CANCELLED", "EXPIRED",
      "BUDGET_EXCEEDED", "AWAITING_HUMAN_REVIEW"]))]

/-- What `021_ai_runtime_execution_integrity` adds to it. -/
def aiRuntimeExecutionIntegrity (t : SqlTable) : SqlTable :=
  (((t.addColumn "locked_by").addColumn "locked_at").addColumn "lease_expires_at").addColumn
    "idempotency_key"

/-- What `031_analysis_job_claim_authority` adds to it. -/
def analysisJobClaimAuthority (t : SqlTable) : SqlTable :=
  ((t.addColumn "claim_token").addColumnNotNull "recovery_count").addCheck
    "chk_analysis_jobs_recovery_count"
    (.and (.le (value (.number 0)) (column "recovery_count"))
      (.le (column "recovery_count") (value (.number 1))))

/-- `analysis_jobs` after all migrations. -/
def analysisJobs : SqlTable :=
  analysisJobClaimAuthority (aiRuntimeExecutionIntegrity aiOrchestrationFoundation)

/-! ## The handler -/

/-- The leases of the organization that have passed, in the statuses that the
handler looks for. -/
def leasePassed (orgId : Uuid) (now : ℤ) : SqlCond :=
  .and (.eq (column "organization_id") (value (.uuid orgId)))
    (.and (.isIn (column "status") (List.map SqlValue.text
      ["UNDERSTANDING", "PLANNING", "EXECUTING"]))
      (.lt (column "lease_expires_at") (value (.number now))))

/-- `row[3] or 0`. -/
def attemptCount (row : SqlRow) : ℤ :=
  match row "attempt_count" with
  | .number n => n
  | _ => 0

/-- The row of the job. -/
def ofJob (orgId : Uuid) (row : SqlRow) : SqlCond :=
  .and (.eq (column "id") (value (row "id"))) (.eq (column "organization_id") (value (.uuid orgId)))

/-- What a job gets that was tried too often. -/
def failedColumns (now : ℤ) : List (String × SqlExpr) :=
  [("status", value (.text "FAILED")), ("error_code", value (.text "LEASE_TIMEOUT_EXCEEDED")),
    ("lease_expires_at", value .null), ("updated_at", value (.number now))]

/-- What a job gets that is to be tried again. -/
def requeuedColumns (now : ℤ) : List (String × SqlExpr) :=
  [("status", value (.text "QUEUED")), ("locked_by", value .null), ("locked_at", value .null),
    ("lease_expires_at", value .null), ("updated_at", value (.number now))]

/-- One round of the loop. -/
def recoverJob (t : SqlTable) (orgId : Uuid) (now : ℤ) (rows : List SqlRow) (row : SqlRow) :
    Except SqlError (List SqlRow) :=
  if 3 ≤ attemptCount row then t.update (failedColumns now) (ofJob orgId row) rows
  else t.update (requeuedColumns now) (ofJob orgId row) rows

/-- `process_analysis_lease_recovery`, on the rows in the order of a scan, some of
which other transactions have locked. -/
def processAnalysisLeaseRecovery (t : SqlTable) (orgId : Uuid) (now : ℤ)
    (locked : SqlRow → Bool) (rows : List SqlRow) : Except SqlError (List SqlRow) := do
  let found ← t.selectForUpdateSkipLocked ["id", "status", "locked_by", "attempt_count"]
    (leasePassed orgId now) 5 locked rows
  found.foldlM (recoverJob t orgId now) rows

/-! ## What it should do -/

/-- The lease of the job is still valid. -/
def LeaseValid (now : ℤ) (r : SqlRow) : Prop := ∃ n, r "lease_expires_at" = .number n ∧ now ≤ n

/-- `claim_next_analysis_job` takes the job. -/
def Claimable (r : SqlRow) : Prop :=
  r "status" = .text "RECEIVED" ∧ r "claim_token" = .null ∧ r "locked_by" = .null ∧
    r "lease_expires_at" = .null

/-- The status is one that `AnalysisJobStatus` knows, and the job is over or waits
for a worker. -/
def Usable (r : SqlRow) : Prop :=
  ∃ st : AnalysisJobStatus, r "status" = .text st.value ∧ (st.isTerminal = true ∨ Claimable r)

/-- The recovery goes through, leaves the jobs that it changes usable, and changes
none whose lease is valid. -/
def Recovers (t : SqlTable) (orgId : Uuid) (now : ℤ) (locked : SqlRow → Bool)
    (rows : List SqlRow) : Prop :=
  ∃ rows', processAnalysisLeaseRecovery t orgId now locked rows = .ok rows' ∧
    ∀ x ∈ rows.zip rows', x.2 ≠ x.1 → Usable x.2 ∧ ¬ LeaseValid now x.1

/-! ## What it does -/

/-- The handler asks for a column that is not there. -/
theorem processAnalysisLeaseRecovery_eq (orgId : Uuid) (now : ℤ) (locked : SqlRow → Bool)
    (rows : List SqlRow) : processAnalysisLeaseRecovery analysisJobs orgId now locked rows =
      .error (.undefinedColumn "attempt_count") := by
  have hresolve : analysisJobs.resolve (["id", "status", "locked_by", "attempt_count"] ++
      (leasePassed orgId now).columns) = .error (.undefinedColumn "attempt_count") :=
    SqlTable.resolve_eq_error rfl
  rw [processAnalysisLeaseRecovery, SqlTable.selectForUpdateSkipLocked, hresolve]
  rfl

/-- **The recovery never works**: on every content of the table, for every
organization and at every time it ends with a database error. -/
theorem not_recovers (orgId : Uuid) (now : ℤ) (locked : SqlRow → Bool) (rows : List SqlRow) :
    (∃ e, processAnalysisLeaseRecovery analysisJobs orgId now locked rows = .error e) ∧
      ¬ Recovers analysisJobs orgId now locked rows := by
  refine ⟨⟨_, processAnalysisLeaseRecovery_eq orgId now locked rows⟩, fun ⟨rows', h, _⟩ => ?_⟩
  rw [processAnalysisLeaseRecovery_eq] at h
  cases h

/-- A job whose worker let its lease pass while it was planning. -/
def planningJob : SqlRow
  | "id" => .uuid 7
  | "organization_id" => .uuid 1
  | "user_id" => .uuid 5
  | "status" => .text "PLANNING"
  | "request_prompt" => .text "ROA"
  | "normalized_request" => .text "{}"
  | "created_at" | "updated_at" | "locked_at" | "recovery_count" => .number 0
  | "locked_by" => .text "w"
  | "lease_expires_at" => .number 900
  | "claim_token" => .uuid 9
  | _ => .null

example : analysisJobs.violation planningJob = none := by decide

/-- Its lease is not recovered. -/
theorem not_recovers_planningJob : ¬ ∀ (orgId : Uuid) (now : ℤ) (locked : SqlRow → Bool)
    (rows : List SqlRow), Recovers analysisJobs orgId now locked rows := by
  intro h
  obtain ⟨rows', h, -⟩ := h 1 1000 (fun _ => false) [planningJob]
  rw [processAnalysisLeaseRecovery_eq] at h
  cases h

/-! ## With the columns that it names -/

/-- The table with the columns that the handler names. -/
def extendedAnalysisJobs : SqlTable :=
  (analysisJobs.addColumn "attempt_count").addColumn "error_code"

/-- The jobs that the handler finds. -/
def foundJobs (orgId : Uuid) (now : ℤ) (locked : SqlRow → Bool) (rows : List SqlRow) :
    List SqlRow :=
  ((rows.filter (leasePassed orgId now).holds).filter fun r => !locked r).take 5

section Extended

variable {orgId : Uuid} {now : ℤ} {locked : SqlRow → Bool} {rows cur : List SqlRow}
  {r r' row : SqlRow}

/-- Every row meets the constraints. -/
def Valid (rows : List SqlRow) : Prop :=
  ∀ r ∈ rows, extendedAnalysisJobs.violation r = none

theorem process_extended : processAnalysisLeaseRecovery extendedAnalysisJobs orgId now locked rows =
    (foundJobs orgId now locked rows).foldlM (recoverJob extendedAnalysisJobs orgId now) rows := by
  have hresolve : extendedAnalysisJobs.resolve (["id", "status", "locked_by", "attempt_count"] ++
      (leasePassed orgId now).columns) = .ok () :=
    SqlTable.resolve_eq_ok (by rw [show (leasePassed orgId now).columns =
      ["organization_id", "status", "lease_expires_at"] from rfl]; decide)
  rw [processAnalysisLeaseRecovery, SqlTable.selectForUpdateSkipLocked, hresolve]
  rfl

/-- An update of the handler keeps the columns `NOT NULL`. -/
theorem notNull_assign {set : List (String × SqlExpr)}
    (hset : ∀ x ∈ set, x.1 ∈ extendedAnalysisJobs.notNull →
      SqlTable.assign set r x.1 ≠ .null)
    (h : ∀ name ∈ extendedAnalysisJobs.notNull, r name ≠ .null) :
    ∀ name ∈ extendedAnalysisJobs.notNull, SqlTable.assign set r name ≠ .null := by
  intro name hn
  by_cases hname : name ∈ set.map (·.1)
  · obtain ⟨x, hx, rfl⟩ := List.mem_map.mp hname
    exact hset x hx hn
  · rw [SqlTable.assign_of_notMem hname]
    exact h name hn

/-- A job that was tried too often passes the constraints when it has failed. -/
theorem violation_failed (h : extendedAnalysisJobs.violation r = none) :
    extendedAnalysisJobs.violation (SqlTable.assign (failedColumns now) r) = none := by
  rw [SqlTable.violation_eq_none_iff] at h ⊢
  refine ⟨notNull_assign ?_ h.1, fun c hc => ?_⟩
  · simp only [failedColumns, List.forall_mem_cons]
    exact ⟨fun _ => nofun, fun hn => absurd hn (by decide), fun hn => absurd hn (by decide),
      fun _ => nofun, nofun⟩
  · rcases List.mem_cons.mp hc with rfl | hc'
    · rfl
    · obtain rfl := List.mem_singleton.mp hc'
      exact h.2 _ hc

/-- A job that is queued again does not. -/
theorem violation_requeued (h : extendedAnalysisJobs.violation r = none) :
    extendedAnalysisJobs.violation (SqlTable.assign (requeuedColumns now) r) =
      some (.checkViolation "chk_analysis_job_status") := by
  rw [SqlTable.violation_eq_none_iff] at h
  have hnull : ∀ name ∈ extendedAnalysisJobs.notNull,
      SqlTable.assign (requeuedColumns now) r name ≠ .null := by
    refine notNull_assign ?_ h.1
    simp only [requeuedColumns, List.forall_mem_cons]
    exact ⟨fun _ => nofun, fun hn => absurd hn (by decide), fun hn => absurd hn (by decide),
      fun hn => absurd hn (by decide), fun _ => nofun, nofun⟩
  have hfind : (extendedAnalysisJobs.notNull.find? fun name =>
      SqlTable.assign (requeuedColumns now) r name == .null) = none := by
    simpa [List.find?_eq_none] using hnull
  rw [SqlTable.violation, hfind]
  rfl

theorem ofJob_holds_iff : (ofJob orgId row).holds r = true ↔
    (r "id" = row "id" ∧ r "id" ≠ .null) ∧ r "organization_id" = .uuid orgId := by
  rw [ofJob, SqlCond.holds_and, Bool.and_eq_true, SqlCond.holds_eq_iff, SqlCond.holds_eq_iff]
  refine and_congr Iff.rfl ⟨fun h => h.1, fun h => ⟨h, fun hnull => ?_⟩⟩
  rw [show SqlExpr.eval r (column "organization_id") = r "organization_id" from rfl, h] at hnull
  cases hnull

/-- What the failure of some of the jobs of a list does to a row. -/
structure Failed (l : List SqlRow) (r r' : SqlRow) : Prop where
  /-- the job stays the same one -/
  id : r' "id" = r "id"
  organization : r' "organization_id" = r "organization_id"
  /-- it is as it was, or it is one of the list and has failed -/
  status : r' = r ∨ r' "status" = .text "FAILED" ∧ ∃ row ∈ l, r "id" = row "id"

/-- A job that was tried too often fails. -/
theorem recoverJob_failed (orgId : Uuid) (now : ℤ) (hrow : 3 ≤ attemptCount row) (h : Valid cur) :
    ∃ f : SqlRow → SqlRow, recoverJob extendedAnalysisJobs orgId now cur row = .ok (cur.map f) ∧
      Valid (cur.map f) ∧ ∀ r, Failed [row] r (f r) := by
  refine ⟨fun r => if (ofJob orgId row).holds r then SqlTable.assign (failedColumns now) r else r,
    ?_, fun r' hr' => ?_, fun r => ?_⟩
  · rw [recoverJob, if_pos hrow]
    exact SqlTable.updateRows_eq_ok fun r hr _ => violation_failed (h r hr)
  · obtain ⟨r, hr, rfl⟩ := List.mem_map.mp hr'
    split
    · exact violation_failed (h r hr)
    · exact h r hr
  · dsimp only
    split
    · rename_i hholds
      exact ⟨rfl, rfl, .inr ⟨rfl, row, List.mem_singleton_self _, (ofJob_holds_iff.mp hholds).1.1⟩⟩
    · exact ⟨rfl, rfl, .inl rfl⟩

/-- A job that is to be tried again fails the update. -/
theorem recoverJob_requeued (hrow : ¬ 3 ≤ attemptCount row) (h : Valid cur)
    (hex : ∃ r ∈ cur, (ofJob orgId row).holds r = true) :
    recoverJob extendedAnalysisJobs orgId now cur row =
      .error (.checkViolation "chk_analysis_job_status") := by
  rw [recoverJob, if_neg hrow]
  exact SqlTable.updateRows_eq_error hex fun r hr _ => violation_requeued (h r hr)

/-- **The loop over jobs that were all tried too often** fails them. -/
theorem foldlM_failed (orgId : Uuid) (now : ℤ) {l : List SqlRow} (hl : ∀ row ∈ l, 3 ≤ attemptCount row) (h : Valid cur) :
    ∃ f : SqlRow → SqlRow, l.foldlM (recoverJob extendedAnalysisJobs orgId now) cur =
      .ok (cur.map f) ∧ ∀ r, Failed l r (f r) := by
  induction l generalizing cur with
  | nil => exact ⟨id, by rw [List.map_id]; rfl, fun r => ⟨rfl, rfl, .inl rfl⟩⟩
  | cons row l ih =>
    obtain ⟨g, hg, hvalid, hrow⟩ := recoverJob_failed orgId now
      (hl row List.mem_cons_self) h
    obtain ⟨f, hf, hrest⟩ := ih (fun row hrow => hl row (List.mem_cons_of_mem _ hrow)) hvalid
    refine ⟨f ∘ g, ?_, fun r => ⟨(hrest (g r)).id.trans (hrow r).id,
      (hrest (g r)).organization.trans (hrow r).organization, ?_⟩⟩
    · rw [List.foldlM_cons, hg, ← List.map_map]
      exact hf
    · rw [Function.comp_apply]
      rcases (hrest (g r)).status with hsame | ⟨hst, row', hmem, hid⟩
      · rw [hsame]
        refine (hrow r).status.imp_right fun ⟨hst, row', hmem, hid⟩ => ⟨hst, row, ?_⟩
        obtain rfl := List.mem_singleton.mp hmem
        exact ⟨List.mem_cons_self, hid⟩
      · exact .inr ⟨hst, row', List.mem_cons_of_mem _ hmem, (hrow r).id.symm.trans hid⟩

/-- **The loop over jobs one of which is to be tried again** ends in an error. -/
theorem foldlM_requeued {l : List SqlRow} (hl : ∃ row ∈ l, ¬ 3 ≤ attemptCount row)
    (hex : ∀ row ∈ l, ∃ r ∈ cur, (ofJob orgId row).holds r = true) (h : Valid cur) :
    l.foldlM (recoverJob extendedAnalysisJobs orgId now) cur =
      .error (.checkViolation "chk_analysis_job_status") := by
  induction l generalizing cur with
  | nil =>
    obtain ⟨row, hrow, -⟩ := hl
    cases hrow
  | cons row l ih =>
    rw [List.foldlM_cons]
    by_cases hrow : 3 ≤ attemptCount row
    · obtain ⟨row', hmem, hrow'⟩ := hl
      have hmem' : row' ∈ l := by
        rcases List.mem_cons.mp hmem with rfl | hmem
        · exact absurd hrow hrow'
        · exact hmem
      obtain ⟨g, hg, hvalid, hfailed⟩ := recoverJob_failed orgId now hrow h
      rw [hg]
      refine ih ⟨row', hmem', hrow'⟩ (fun q hq => ?_) hvalid
      -- the jobs are still there
      obtain ⟨r, hr, hholds⟩ := hex q (List.mem_cons_of_mem _ hq)
      refine ⟨g r, List.mem_map_of_mem hr, ?_⟩
      rw [ofJob_holds_iff] at hholds ⊢
      rwa [(hfailed r).id, (hfailed r).organization]
    · rw [recoverJob_requeued hrow h (hex row List.mem_cons_self)]
      rfl

theorem mem_foundJobs (h : row ∈ foundJobs orgId now locked rows) :
    row ∈ rows ∧ (leasePassed orgId now).holds row = true := by
  have hmem := List.mem_filter.mp (List.mem_of_mem_take h)
  exact List.mem_filter.mp hmem.1

/-- **With the columns the recovery works** for jobs that were tried often enough. -/
theorem recovers_extended (h : Valid rows) (hid : (rows.map (· "id")).Nodup)
    (hfound : ∀ row ∈ foundJobs orgId now locked rows, 3 ≤ attemptCount row) :
    Recovers extendedAnalysisJobs orgId now locked rows := by
  obtain ⟨f, hf, hfailed⟩ := foldlM_failed orgId now hfound h
  refine ⟨rows.map f, process_extended.trans hf, fun x hx hne => ?_⟩
  have hzip : rows.zip (rows.map f) = rows.map fun r => (r, f r) := by
    simpa using List.zip_map' (f := id) (g := f) (l := rows)
  rw [hzip] at hx
  obtain ⟨r, hr, rfl⟩ := List.mem_map.mp hx
  obtain ⟨hst, row, hrow, hrid⟩ := (hfailed r).status.resolve_left hne
  obtain ⟨hmem, hlease⟩ := mem_foundJobs hrow
  obtain rfl := List.inj_on_of_nodup_map hid hr hmem hrid
  refine ⟨⟨.failed, hst, .inl rfl⟩, fun ⟨n, hn, hvalid⟩ => ?_⟩
  simp only [leasePassed, SqlCond.holds_and, Bool.and_eq_true, SqlCond.holds_lt_iff] at hlease
  obtain ⟨-, -, m, n', hm, hn', hlt⟩ := hlease
  cases hn'
  cases hm.symm.trans hn
  omega

/-- **And fails** if one of them is to be tried again: `QUEUED` is no status of an
analysis job. -/
theorem process_extended_requeued (h : Valid rows)
    (hfound : ∃ row ∈ foundJobs orgId now locked rows, attemptCount row < 3) :
    processAnalysisLeaseRecovery extendedAnalysisJobs orgId now locked rows =
      .error (.checkViolation "chk_analysis_job_status") := by
  obtain ⟨row, hrow, hlt⟩ := hfound
  refine process_extended.trans (foldlM_requeued ⟨row, hrow, by omega⟩ (fun q hq => ?_) h)
  obtain ⟨hmem, hlease⟩ := mem_foundJobs hq
  refine ⟨q, hmem, ofJob_holds_iff.mpr ⟨⟨rfl, ?_⟩, ?_⟩⟩
  · exact (SqlTable.violation_eq_none_iff.mp (h q hmem)).1 "id" (by decide)
  · simp only [leasePassed, SqlCond.holds_and, Bool.and_eq_true, SqlCond.holds_eq_iff] at hlease
    exact hlease.1.1

end Extended

end FinanceIntelligence
