import FinanceIntelligence.IngestionRuns
import Mathlib.Data.List.Nodup

/-!
# Progress of the ingestion queue

`fetch_next_queued_ingestion_job` picks the oldest job that is ready, and
`claim_ingestion_job` is stricter: it asks for attempts that are left, and skips a
row that is locked. A job that is picked and refused is picked again by the next
poll, before all the younger ones.

* `progresses_iff_unblocked` — the queue **makes progress** exactly if no job is in the way of
  those that can be claimed.
-/

namespace FinanceIntelligence

/-! ## Picking by one test, serving by another -/

section Pick

variable {α β : Type} [LinearOrder β] {f : α → β} {p q : α → Bool} {l : List α} {a b : α}

/-- What is picked is there, passes the test, and no other such element comes
before it. -/
theorem argmin_filter (h : (l.filter p).argmin f = some a) :
    a ∈ l ∧ p a = true ∧ ∀ b ∈ l, p b = true → f a ≤ f b := by
  have hmem := List.mem_filter.mp (List.argmin_mem (Option.mem_def.mpr h))
  exact ⟨hmem.1, hmem.2, fun b hb hpb =>
    not_lt.mp (List.not_lt_of_mem_argmin (List.mem_filter.mpr ⟨hb, hpb⟩) (Option.mem_def.mpr h))⟩

/-- The first element of a list is picked before all that are not smaller. -/
theorem argmin_cons_cases (h : (b :: l).argmin f = some a) : a = b ∨ f a < f b := by
  rw [List.argmin_cons] at h
  cases hl : l.argmin f with
  | none =>
    rw [hl] at h
    exact .inl (Option.some.inj h).symm
  | some c =>
    simp only [hl] at h
    split at h
    · rename_i hc
      exact .inr (Option.some.inj h ▸ hc)
    · exact .inl (Option.some.inj h).symm

/-- **Picking is sound** when it is by the test `p`, served are the elements that
pass `q`, and the elements come in any order: exactly if some served element comes
before each one that passes `p` only. -/
theorem pick_sound_iff (hqp : ∀ a, q a = true → p a = true) :
    (∀ l' : List α, l'.Perm l → ∀ a, (l'.filter p).argmin f = some a → q a = true) ↔
      ∀ b ∈ l, p b = true → q b = false → ∃ a ∈ l, q a = true ∧ f a < f b := by
  constructor
  · intro h b hb hpb hqb
    -- the refused element comes first
    obtain ⟨l₁, l₂, rfl⟩ := List.append_of_mem hb
    have hperm : (b :: (l₁ ++ l₂)).Perm (l₁ ++ b :: l₂) := List.perm_middle.symm
    have hfilter : (b :: (l₁ ++ l₂)).filter p = b :: (l₁ ++ l₂).filter p :=
      List.filter_cons_of_pos hpb
    cases ha : ((b :: (l₁ ++ l₂)).filter p).argmin f with
    | none =>
      rw [List.argmin_eq_none, hfilter] at ha
      cases ha
    | some a =>
      have hqa := h _ hperm a ha
      refine ⟨a, hperm.mem_iff.mp (argmin_filter ha).1, hqa, ?_⟩
      rw [hfilter] at ha
      refine (argmin_cons_cases ha).resolve_left fun hab => ?_
      rw [hab, hqb] at hqa
      cases hqa
  · intro h l' hperm a ha
    obtain ⟨hmem, hpa, hmin⟩ := argmin_filter ha
    by_contra hqa
    obtain ⟨c, hc, hqc, hlt⟩ := h a (hperm.mem_iff.mp hmem) hpa (eq_false_of_ne_true hqa)
    exact absurd hlt (not_lt.mpr (hmin c (hperm.mem_iff.mpr hc) (hqp c hqc)))

end Pick

/-! ## The queue -/

namespace IngestionQueue

/-- What the two functions meet. -/
structure JobQueue where
  /-- `now()` -/
  now : ℕ
  /-- `ingestion_jobs` -/
  rows : List (Uuid × IngestionJob)
  /-- a running transaction has the row locked -/
  locked : Uuid → Bool
  /-- `id` is a primary key -/
  nodup : (rows.map (·.1)).Nodup

namespace JobQueue

variable (q : JobQueue)

/-- `claim_ingestion_job` accepts the job. -/
def accepts (x : Uuid × IngestionJob) : Bool := claimable q.now x.2 && !q.locked x.1

/-- If a job can be claimed, the one that `fetch_next_queued_ingestion_job` returns
can be, in whatever order the database finds the rows. -/
def Progresses : Prop :=
  ∀ rows, rows.Perm q.rows → (∃ x ∈ q.rows, q.accepts x = true) →
    ∃ x ∈ q.rows, fetchNextQueuedIngestionJob 15 q.now rows = some x.1 ∧ q.accepts x = true

/-- The job is ready and is refused: its row is locked, or its parse is stale and
no attempts are left. -/
def Blocks (x : Uuid × IngestionJob) : Prop :=
  ready 15 q.now x.2 = true ∧
    (q.locked x.1 = true ∨ x.2.status = .parsing ∧ x.2.maxAttempts ≤ x.2.currentAttempt)

/-- If a job can be claimed, one that can be is older than any that is in the
way. -/
def Unblocked : Prop :=
  (∃ x ∈ q.rows, q.accepts x = true) →
    ∀ x ∈ q.rows, q.Blocks x → ∃ y ∈ q.rows, q.accepts y = true ∧ y.2.createdAt < x.2.createdAt

variable {q} {x y : Uuid × IngestionJob}

theorem ready_of_claimable {now : ℕ} {job : IngestionJob} (h : claimable now job = true) :
    ready 15 now job = true := by
  simp only [claimable, ready, Bool.or_eq_true, Bool.and_eq_true] at h ⊢
  exact h.imp_right fun h => h.1

theorem blocks_iff : q.Blocks x ↔ ready 15 q.now x.2 = true ∧ q.accepts x = false := by
  have hqueued : x.2.status = .queued → x.2.status ≠ .parsing := fun h => by simp [h]
  unfold Blocks
  refine and_congr_right fun hready => ?_
  simp only [ready, stale, Bool.or_eq_true, Bool.and_eq_true, beq_iff_eq] at hready
  simp only [accepts, claimable, stale, Bool.and_eq_false_iff, Bool.or_eq_false_iff,
    Bool.not_eq_false', beq_eq_false_iff_ne, decide_eq_false_iff_not, not_lt]
  rcases hready with hst | ⟨hst, hlocked⟩
  · simp [hst]
  · simp [hst, hlocked, or_comm]

/-- **Ids are keys.** -/
theorem eq_of_id (hx : x ∈ q.rows) (hy : y ∈ q.rows) (h : x.1 = y.1) : x = y :=
  List.inj_on_of_nodup_map q.nodup hx hy h

theorem ready_of_accepts (x : Uuid × IngestionJob) (h : q.accepts x = true) :
    ready 15 q.now x.2 = true :=
  ready_of_claimable (Bool.and_eq_true_iff.mp h).1

/-- A job that is in the way, first in the order of the rows, is picked. -/
theorem Progresses.unblocked (h : q.Progresses) : q.Unblocked := by
  intro hsome x hx hblocks
  obtain ⟨hr, ha⟩ := blocks_iff.mp hblocks
  refine (pick_sound_iff (f := fun x => x.2.createdAt) ready_of_accepts).mp
    (fun rows hperm y hy => ?_) x hx hr ha
  obtain ⟨z, hz, hfetch, haz⟩ := h rows hperm hsome
  rw [fetchNextQueuedIngestionJob, hy] at hfetch
  have hmem := hperm.mem_iff.mp (argmin_filter hy).1
  rwa [eq_of_id hmem hz (Option.some.inj hfetch)]

/-- No job is in the way of the one that is picked. -/
theorem Unblocked.progresses (h : q.Unblocked) : q.Progresses := by
  intro rows hperm hsome
  have hsound := (pick_sound_iff (f := fun x => x.2.createdAt) ready_of_accepts).mpr
    fun x hx hr ha => h hsome x hx (blocks_iff.mpr ⟨hr, ha⟩)
  cases hy : (rows.filter fun x => ready 15 q.now x.2).argmin fun x => x.2.createdAt with
  | none =>
    obtain ⟨x, hx, hax⟩ := hsome
    have hmem : x ∈ rows.filter fun x => ready 15 q.now x.2 :=
      List.mem_filter.mpr ⟨hperm.mem_iff.mpr hx, ready_of_accepts x hax⟩
    rw [List.argmin_eq_none.mp hy] at hmem
    cases hmem
  | some y =>
    exact ⟨y, hperm.mem_iff.mp (argmin_filter hy).1,
      by rw [fetchNextQueuedIngestionJob, hy]; rfl, hsound rows hperm y hy⟩

/-- **The queue makes progress** exactly if no job is in the way of those that can
be claimed. -/
theorem progresses_iff_unblocked (q : JobQueue) : q.Progresses ↔ q.Unblocked :=
  ⟨Progresses.unblocked, Unblocked.progresses⟩

/-- **The queue can stall**: the parse of an old job still runs after fifteen
minutes, and no younger job is claimed. -/
theorem exists_not_progresses : ¬ ∀ q : JobQueue, q.Progresses := by
  intro h
  let parsing : IngestionJob := ⟨1, 11, .parsing, 0, 3, some "w", some 0, some 5, 0⟩
  let queued : IngestionJob := ⟨1, 12, .queued, 0, 3, none, none, none, 50⟩
  let q : JobQueue := ⟨1000, [(1, parsing), (2, queued)], fun j => j == 1, by decide⟩
  obtain ⟨y, hy, haccepts, hlt⟩ := (h q).unblocked
    ⟨(2, queued), List.mem_cons_of_mem _ (List.mem_singleton_self _), by decide⟩
    (1, parsing) List.mem_cons_self ⟨by decide, .inl (by decide)⟩
  exact absurd hlt (Nat.not_lt_zero _)

end JobQueue

end IngestionQueue

/-! ## The queue of a state -/

open IngestionQueue

theorem mem_jobRows {d : IngestionDb} (h : IngestionInv d) {j : Uuid} {job : IngestionJob} :
    (j, job) ∈ d.jobRows ↔ ∃ r, d.jobs j = some r ∧ r.job = job := by
  simp only [IngestionDb.jobRows, List.mem_filterMap, Option.map_eq_some_iff, Prod.mk.injEq]
  constructor
  · rintro ⟨i, -, r, hr, rfl, hjob⟩
    exact ⟨r, hr, hjob⟩
  · rintro ⟨r, hr, hjob⟩
    exact ⟨j, (h.listed j).mpr (by rw [hr]; rfl), r, hr, rfl, hjob⟩

theorem nodup_jobRows {d : IngestionDb} (h : IngestionInv d) : (d.jobRows.map (·.1)).Nodup := by
  have hids : d.jobRows.map (·.1) = d.jobIds.filter fun j => (d.jobs j).isSome := by
    rw [IngestionDb.jobRows, List.map_filterMap, ← List.filterMap_eq_filter]
    refine congrArg (fun f => d.jobIds.filterMap f) (funext fun j => ?_)
    cases hj : d.jobs j <;> simp [Option.guard, hj]
  rw [hids]
  exact h.nodup.filter _

/-- The queue as a process meets it that has locked nothing. -/
def queueOf (s : IngestionSys) (h : IngestionInv s.db) : JobQueue where
  now := s.db.now
  rows := s.db.jobRows
  locked j := (s.owner (.job j)).isSome
  nodup := nodup_jobRows h

section Claim

variable {s : IngestionSys} {p : ℕ} {i : IngestionAnswer} {pr : IngestionProc} {j token : Uuid}
  {w : String} {k : Option ClaimedJob → IngestionProg Unit} {r : IngestionRows}

/-- A job that the queue accepts is claimed. -/
theorem exec_claim_accepted (hk : pr.prog = (claimIngestionJob s.db.now j w token).bind k)
    (hpending : pr.pending = []) (hr : s.db.jobs j = some r)
    (hclaimable : claimable s.db.now r.job = true) (hfree : s.owner (.job j) = none)
    (hp : s.proc p = some pr) :
    ((ingestionModel.run (List.replicate 3 (.exec p i)) s).bind fun s' => s'.proc p) =
      some { pr with
        prog := k (some ⟨j, r.job.organizationId, r.job.documentVersionId, w, token⟩)
        pending := [.updateJob j (handOut w token s.db.now)] } := by
  obtain ⟨c, prog, pending, mark⟩ := pr
  obtain rfl : pending = [] := hpending
  obtain rfl : prog = _ := hk
  simp [Model.run, Model.runBy, Model.step, Model.exec, claimIngestionJob,
    IngestionProg.lockJobSkip, IngestionProg.execute, Prog.bind, hp, hr, hfree, hclaimable,
    ingestionModel, ingestionSchema, IngestionStmt.target, IngestionStmt.check, Sys.free,
    Sys.acquire, Schema.view]

/-- A job that the queue does not accept is not. -/
theorem exec_claim_refused (hk : pr.prog = (claimIngestionJob s.db.now j w token).bind k)
    (hpending : pr.pending = []) (hr : s.db.jobs j = some r)
    (hrefused : claimable s.db.now r.job = false ∨ s.free p (.job j) = false) :
    ingestionModel.exec p i s pr = some (s.put p { pr with prog := k none }) := by
  obtain ⟨c, prog, pending, mark⟩ := pr
  obtain rfl : pending = [] := hpending
  obtain rfl : prog = _ := hk
  -- the row is not there for the claim, or cannot be locked
  have hskip : (if claimable s.db.now r.job = true then [IngestionRow.job j] else []).filter
      (s.free p) = [] := by
    rcases hrefused with h | h
    · simp [h]
    · split <;> simp [h]
  simp [Model.exec, claimIngestionJob, IngestionProg.lockJobSkip, Prog.bind, hr, hskip]

end Claim

/-- **In every reachable state** whose queue is not blocked, a poll finds a job that
it can claim, if there is one. -/
theorem poll_finds_claimable {now : ℕ} {s : IngestionSys} (h : IngestionReachable now s)
    (hq : (queueOf s (ingestion_safe h).inv).Unblocked)
    (hsome : ∃ j r, s.db.jobs j = some r ∧ claimable s.db.now r.job = true ∧
      s.owner (.job j) = none) :
    ∃ j r, fetchNextQueuedIngestionJob 15 s.db.now s.db.jobRows = some j ∧
      s.db.jobs j = some r ∧ claimable s.db.now r.job = true ∧ s.owner (.job j) = none := by
  have hinv := (ingestion_safe h).inv
  obtain ⟨j, r, hr, hc, hfree⟩ := hsome
  obtain ⟨⟨i, job⟩, hmem, hfetch, haccepts⟩ := hq.progresses s.db.jobRows
    (List.Perm.refl _) ⟨(j, r.job), (mem_jobRows hinv).mpr ⟨r, hr, rfl⟩, by
      simp [JobQueue.accepts, queueOf, hc, hfree]⟩
  obtain ⟨r', hr', rfl⟩ := (mem_jobRows hinv).mp hmem
  simp only [JobQueue.accepts, queueOf, Bool.and_eq_true, Bool.not_eq_true',
    Option.isSome_eq_false_iff, Option.isNone_iff_eq_none] at haccepts
  exact ⟨i, r', hfetch, hr', haccepts.1, haccepts.2⟩

end FinanceIntelligence
