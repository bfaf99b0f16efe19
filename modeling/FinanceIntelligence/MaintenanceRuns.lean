import FinanceIntelligence.MaintenanceWorker
import FinanceIntelligence.RelyGuarantee
import FinanceIntelligence.RunCounts

/-!
# Runs of the maintenance worker

As long as no handler commits or meets a database error, and no worker dies
between the start of a handler and the end of its transaction, each process goes
through the phases of `Phase`: it holds the lock on the job it works on, whose row
is as it was before the claim, until one commit installs the claim and the end of
the job together.

* `maintenance_bounded_and_closed` — there a handler is called **at most `max_attempts` times**,
  and the job that it has left is **closed** as it ended.
-/

namespace FinanceIntelligence

open MaintenanceWorker

/-- A state of the maintenance workers. -/
abbrev MaintenanceSys := Sys Uuid MaintenanceStmt MaintenanceAnswer MaintenanceMark MaintenanceDb
  MaintenanceExc MaintenanceCall

/-- A maintenance worker. -/
abbrev MaintenanceProc := Proc Uuid MaintenanceStmt MaintenanceAnswer MaintenanceMark
  MaintenanceDb MaintenanceExc MaintenanceCall

/-- What can happen. -/
abbrev MaintenanceAct := Act MaintenanceAnswer MaintenanceCall ℕ

/-- The handler neither commits nor meets a database error. -/
def HandlerRun.Clean (run : HandlerRun) : Prop :=
  run.commits = false ∧ run.ending ≠ .databaseError

/-- A handler that runs is a clean one, and no worker dies while it has locked the
job whose handler it has called. -/
def CleanStep (a : MaintenanceAct) (s : MaintenanceSys) : Prop :=
  (∀ p i pr j, a = .exec p i → s.proc p = some pr → pr.mark = some (.handling j) →
    i.handler.Clean) ∧
  ∀ p pr j, a = .crash p → s.proc p = some pr → pr.mark.isSome = true → s.owner j ≠ some p

/-- What is set at the end of a job. -/
def setClosed : HandlerEnd → MaintenanceJob → MaintenanceJob
  | .returned => setCompleted
  | _ => setFailed

/-- What is returned at the end of a job. -/
def closedOutcome : HandlerEnd → MaintenanceOutcomeStatus
  | .returned => .processedSuccess
  | _ => .processedFailed

/-! ## What is left to do in a phase -/

section Programs

variable (c : MaintenanceCall) (now : ℕ) (j : Uuid) (e : HandlerEnd)

/-- The claim, and everything after it. -/
def claiming (m : MaintenanceProg (Option (Uuid × MaintenanceJob))) : MaintenanceProg Unit :=
  (m.bind fun x =>
    match x with
    | none => .ret .noJobsFound
    | some (j, job) => processJob c.worker c.claimToken j job).bind fun _ => .ret ()

/-- The claim once the job is chosen. -/
def chosen : List Uuid → MaintenanceProg (Option (Uuid × MaintenanceJob))
  | [] => .ret none
  | j :: _ =>
    (execute (.updateJob j (handOut c.worker c.claimToken now))).bind fun _ =>
      (Prog.read .ret).bind fun d => .ret ((d.jobs j).map fun job => (j, job))

/-- The claim from the choice of the job on. -/
def choosing (b : Bool) : MaintenanceProg Unit :=
  claiming c (.lockSkip (claimQueue b now) 1 (chosen c now))

/-- The claim of the job, from its update on. -/
def handing : MaintenanceProg Unit := claiming c (chosen c now [j])

/-- The claim of the job, from its last read on. -/
def rereading : MaintenanceProg Unit :=
  claiming c ((Prog.read .ret).bind fun d => .ret ((d.jobs j).map fun job => (j, job)))

/-- From the handler on. -/
def handling : MaintenanceProg Unit :=
  ((Prog.ask fun i => .ret i.handler).bind fun run => (handlerCommit run).bind fun _ =>
    (Prog.note (.ended j run) (.ret ())).bind fun _ =>
      closeJob c.worker c.claimToken j run).bind fun _ => .ret ()

/-- From the end of the handler on. -/
def ending : MaintenanceProg Unit :=
  ((Prog.note (.ended j ⟨false, e⟩) (.ret ())).bind fun _ =>
    closeJob c.worker c.claimToken j ⟨false, e⟩).bind fun _ => .ret ()

/-- From the last update of the job on. -/
def closing : MaintenanceProg Unit :=
  ((updateOwn true c.worker c.claimToken j (setClosed e)).bind fun _ => commit.bind fun _ =>
    .ret (closedOutcome e)).bind fun _ => .ret ()

/-- From its writing on. -/
def writing : MaintenanceProg Unit :=
  ((execute (.updateJob j (setClosed e))).bind fun _ => commit.bind fun _ =>
    .ret (closedOutcome e)).bind fun _ => .ret ()

/-- The commit. -/
def committing : MaintenanceProg Unit :=
  (commit.bind fun _ => .ret (closedOutcome e)).bind fun _ => .ret ()

theorem closing_eq {e : HandlerEnd} (h : e ≠ .databaseError) :
    (closeJob c.worker c.claimToken j ⟨false, e⟩).bind (fun _ => .ret ()) = closing c j e := by
  cases e with
  | returned => rfl
  | raised => rfl
  | databaseError => exact absurd rfl h

end Programs

/-- The process has locked the job, which could be claimed at the time `now` and is
as it was then. -/
structure Claimed (s : MaintenanceSys) (p : ℕ) (j : Uuid) (r : MaintenanceJob) (now : ℕ) :
    Prop where
  /-- the lock -/
  owner : s.owner j = some p
  row : s.db.jobs j = some r
  /-- it could be claimed -/
  claimable : claimable now r = true

/-- The update of a claim. -/
abbrev claimStmt (c : MaintenanceCall) (now : ℕ) (j : Uuid) : MaintenanceStmt :=
  .updateJob j (handOut c.worker c.claimToken now)

/-- The status of a job that is over. -/
def closedStatus : HandlerEnd → MaintenanceStatus
  | .returned => .completed
  | _ => .failed

/-- The phases of a process that serves `c`: what is left to do, the pending
statements and the last note. -/
inductive Phase (b : Bool) (s : MaintenanceSys) (p : ℕ) (c : MaintenanceCall) :
    MaintenanceProg Unit → List MaintenanceStmt → Option MaintenanceMark → Prop where
  /-- nothing is done -/
  | start : Phase b s p c ((maintenanceModel b).body c) [] none
  /-- a job is to be chosen -/
  | choose (now : ℕ) : Phase b s p c (choosing c now b) [] none
  /-- a job is locked -/
  | hand (now : ℕ) (j : Uuid) (r : MaintenanceJob) (h : Claimed s p j r now) :
    Phase b s p c (handing c now j) [] none
  /-- and updated -/
  | reread (now : ℕ) (j : Uuid) (r : MaintenanceJob) (h : Claimed s p j r now) :
    Phase b s p c (rereading c j) [claimStmt c now j] none
  /-- it is claimed -/
  | process (now : ℕ) (j : Uuid) (r r' : MaintenanceJob) (h : Claimed s p j r now) :
    Phase b s p c ((processJob c.worker c.claimToken j r').bind fun _ => .ret ())
      [claimStmt c now j] none
  /-- the handler is called -/
  | handle (now : ℕ) (j : Uuid) (r : MaintenanceJob) (h : Claimed s p j r now) :
    Phase b s p c (handling c j) [claimStmt c now j] (some (.handling j))
  | ended (now : ℕ) (j : Uuid) (r : MaintenanceJob) (e : HandlerEnd) (he : e ≠ .databaseError)
    (h : Claimed s p j r now) :
    Phase b s p c (ending c j e) [claimStmt c now j] (some (.handling j))
  /-- the job is to be closed -/
  | close (now : ℕ) (j : Uuid) (r : MaintenanceJob) (e : HandlerEnd) (h : Claimed s p j r now) :
    Phase b s p c (closing c j e) [claimStmt c now j] (some (.ended j ⟨false, e⟩))
  /-- its row is found -/
  | write (now : ℕ) (j : Uuid) (r : MaintenanceJob) (e : HandlerEnd) (h : Claimed s p j r now) :
    Phase b s p c (writing j e) [claimStmt c now j] (some (.ended j ⟨false, e⟩))
  /-- and updated -/
  | commit (now : ℕ) (j : Uuid) (r : MaintenanceJob) (e : HandlerEnd) (h : Claimed s p j r now) :
    Phase b s p c (committing e) [claimStmt c now j, .updateJob j (setClosed e)]
      (some (.ended j ⟨false, e⟩))
  /-- the job is over -/
  | closed (j : Uuid) (r : MaintenanceJob) (e : HandlerEnd) (hr : s.db.jobs j = some r)
    (hst : r.status = closedStatus e) (hfree : ∀ i, s.owner i ≠ some p) :
    Phase b s p c (.ret ()) [] (some (.ended j ⟨false, e⟩))
  /-- no job was claimed -/
  | idle (l : List MaintenanceStmt) : Phase b s p c (.ret ()) l none

/-- Replace the row of a job. -/
def setJob (d : MaintenanceDb) (j : Uuid) (r : MaintenanceJob) : MaintenanceDb :=
  { d with jobs := Function.update d.jobs j (some r) }

/-- The job of a note. -/
def MaintenanceMark.job : MaintenanceMark → Uuid
  | .handling j => j
  | .ended j _ => j

/-- What one instruction of a process in one of the phases does. -/
inductive Effect (s s' : MaintenanceSys) (p : ℕ) (pr pr' : MaintenanceProc) : Prop where
  /-- no contents are changed -/
  | quiet (hdb : s'.db = s.db) (howner : ∀ j, s.owner j = some p → s'.owner j = some p)
    (hjob : ∀ m, pr.mark = some m → ∃ m', pr'.mark = some m' ∧ m'.job = m.job)
    (hhandling : ∀ j, pr.mark = none → pr'.mark = some (.handling j) → s'.owner j = some p)
  /-- the job is claimed and closed -/
  | closed (now : ℕ) (j : Uuid) (r : MaintenanceJob) (e : HandlerEnd) (h : Claimed s p j r now)
    (hm : pr.mark = some (.ended j ⟨false, e⟩)) (hm' : pr'.mark = pr.mark)
    (hdb : s'.db = setJob s.db j
      (setClosed e (handOut pr.call.worker pr.call.claimToken now r)))
    (hfree : ∀ i, s'.owner i ≠ some p)

/-- A process in one of the phases takes a step. -/
structure Moves (b : Bool) (s s' : MaintenanceSys) (p : ℕ) (pr pr' : MaintenanceProc) : Prop where
  /-- the other processes are as they were -/
  proc : s'.proc = Function.update s.proc p (some pr')
  /-- it goes on serving its call -/
  call : pr'.call = pr.call
  /-- the other processes keep their locks -/
  owner : ∀ j q, q ≠ p → (s'.owner j = some q ↔ s.owner j = some q)
  /-- it is in the next phase -/
  phase : Phase b s' p pr'.call pr'.prog pr'.pending pr'.mark
  /-- what it does -/
  effect : Effect s s' p pr pr'

section Exec

variable {b : Bool} {s s' : MaintenanceSys} {p : ℕ} {pr : MaintenanceProc} {i : MaintenanceAnswer}
  {j : Uuid} {r : MaintenanceJob} {now : ℕ}

theorem claimable_maxAttempts (h : claimable now r = true) : r.attemptCount < r.maxAttempts := by
  simp only [claimable, Bool.and_eq_true, decide_eq_true_eq] at h
  exact h.2.2

theorem mem_claimQueue {d : MaintenanceDb} (h : j ∈ claimQueue b now d) :
    ∃ r, d.jobs j = some r ∧ claimable now r = true := by
  rw [claimQueue] at h
  split at h
  · rw [List.mem_insertionSort, List.mem_filter, Option.any_eq_true] at h
    exact h.2
  · cases h

/-- The row as the transaction sees it that has claimed it. -/
theorem Claimed.view (h : Claimed s p j r now) (c : MaintenanceCall) :
    (maintenanceSchema.view [claimStmt c now j] s.db).jobs j =
      some (handOut c.worker c.claimToken now r) := by
  simp [Schema.view, maintenanceSchema, h.row]

theorem Claimed.check (h : Claimed s p j r now) (c : MaintenanceCall) :
    maintenanceSchema.check (claimStmt c now j) s.db = true := by
  have := claimable_maxAttempts h.claimable
  simp only [maintenanceSchema, h.row, handOut, Option.all_some, decide_eq_true_eq]
  omega

theorem Claimed.check_closed (h : Claimed s p j r now) (c : MaintenanceCall) (e : HandlerEnd) :
    maintenanceSchema.check (.updateJob j (setClosed e))
      (maintenanceSchema.view [claimStmt c now j] s.db) = true := by
  have hmax := claimable_maxAttempts h.claimable
  have hset : (setClosed e (handOut c.worker c.claimToken now r)).maxAttempts = r.maxAttempts := by
    cases e <;> rfl
  have hview := h.view c
  simp only [maintenanceSchema] at hview ⊢
  rw [hview, Option.all_some, hset, decide_eq_true_eq]
  omega

/-- The claim and the end of the job commit together. -/
theorem Claimed.replay (h : Claimed s p j r now) (c : MaintenanceCall) (e : HandlerEnd) :
    maintenanceSchema.replay [claimStmt c now j, .updateJob j (setClosed e)] s.db =
      .ok (setJob s.db j (setClosed e (handOut c.worker c.claimToken now r))) := by
  rw [Schema.replay_cons_eq_ok, Schema.replay_cons_eq_ok]
  refine ⟨h.check c, h.check_closed c e, ?_⟩
  simp [Schema.replay, maintenanceSchema, setJob, h.row]

theorem Claimed.put (h : Claimed s p j r now) (pr : MaintenanceProc) :
    Claimed (s.put p pr) p j r now := ⟨h.owner, h.row, h.claimable⟩

/-- A process that only goes on. -/
theorem Moves.of_put {c : MaintenanceCall} {prog prog' : MaintenanceProg Unit}
    {l l' : List MaintenanceStmt} {m m' : Option MaintenanceMark}
    (hphase : Phase b (s.put p ⟨c, prog', l', m'⟩) p c prog' l' m')
    (hjob : ∀ n, m = some n → ∃ n', m' = some n' ∧ n'.job = n.job)
    (hhandling : ∀ j, m = none → m' = some (.handling j) → s.owner j = some p) :
    Moves b s (s.put p ⟨c, prog', l', m'⟩) p ⟨c, prog, l, m⟩ ⟨c, prog', l', m'⟩ where
  proc := rfl
  call := rfl
  owner _ _ _ := Iff.rfl
  phase := hphase
  effect := .quiet rfl (fun _ h => h) hjob hhandling

/-- **One instruction** of a process in one of the phases: it ends the process,
which has claimed nothing or holds nothing any more, or it leads to the next
phase. -/
theorem Phase.exec (h : Phase b s p pr.call pr.prog pr.pending pr.mark)
    (hi : ∀ j, pr.mark = some (.handling j) → i.handler.Clean)
    (hs : (maintenanceModel b).exec p i s pr = some s') :
    s' = s.drop p ∧ (pr.mark = none ∨ ∀ j, s.owner j ≠ some p) ∨
      ∃ pr', Moves b s s' p pr pr' := by
  obtain ⟨c, prog, pending, mark⟩ := pr
  change Phase b s p c prog pending mark at h
  cases h with
  | start =>
    have hbody : (maintenanceModel b).body c =
        claiming c (claimNextMaintenanceJob b c.worker c.claimToken) := rfl
    rw [hbody, claimNextMaintenanceJob] at hs
    split at hs
    · exact .inl ⟨(Option.some.inj hs).symm, .inl rfl⟩
    · obtain rfl := Option.some.inj hs
      exact .inr ⟨_, .of_put (.choose _) (by rintro _ ⟨⟩) (by rintro _ _ ⟨⟩)⟩
  | choose now =>
    obtain ⟨l, hl⟩ : ∃ l, ((claimQueue b now s.db).filter (s.free p)).take 1 = l := ⟨_, rfl⟩
    have hstep : (maintenanceModel b).exec p i s ⟨c, choosing c now b, [], none⟩ =
        some ((s.acquire p l).put p ⟨c, claiming c (chosen c now l), [], none⟩) := by
      rw [← hl]
      rfl
    obtain rfl := Option.some.inj (hstep.symm.trans hs)
    have hmem : ∀ j ∈ l, j ∈ claimQueue b now s.db ∧ s.free p j = true := by
      intro j hj
      rw [← hl] at hj
      exact List.mem_filter.mp (List.mem_of_mem_take hj)
    refine .inr ⟨_, rfl, rfl,
      fun k q hq => Discipline.owner_acquire (fun k hk => (hmem k hk).2) k hq,
      ?_, .quiet rfl (fun k hk => ?_) (by rintro _ ⟨⟩) (by rintro _ _ ⟨⟩)⟩
    · cases l with
      | nil => exact .idle []
      | cons j l =>
        obtain ⟨r, hr, hclaimable⟩ := mem_claimQueue (hmem j List.mem_cons_self).1
        refine .hand now j r ⟨?_, hr, hclaimable⟩
        simp [Sys.acquire]
    · simp only [Sys.owner_put, Sys.acquire]
      split
      · rfl
      · exact hk
  | hand now j r h =>
    have hstep : (maintenanceModel b).exec p i s ⟨c, handing c now j, [], none⟩ =
        some (s.put p ⟨c, rereading c j, [claimStmt c now j], none⟩) :=
      Model.exec_write_held (r := j) rfl h.owner (h.check c)
    obtain rfl := Option.some.inj (hstep.symm.trans hs)
    exact .inr ⟨_, .of_put (.reread now j r (h.put _)) (by rintro _ ⟨⟩) (by rintro _ _ ⟨⟩)⟩
  | reread now j r h =>
    have hstep : (maintenanceModel b).exec p i s ⟨c, rereading c j, [claimStmt c now j], none⟩ =
        some (s.put p ⟨c, claiming c (.ret (((maintenanceSchema.view [claimStmt c now j]
          s.db).jobs j).map fun job => (j, job))), [claimStmt c now j], none⟩) := rfl
    rw [h.view c] at hstep
    obtain rfl := Option.some.inj (hstep.symm.trans hs)
    exact .inr ⟨_, .of_put (.process now j r _ (h.put _)) (by rintro _ ⟨⟩) (by rintro _ _ ⟨⟩)⟩
  | process now j r r' h =>
    by_cases hcode : r'.jobCode = "CLARIFICATION_EXPIRY" ∨ r'.jobCode = "ANALYSIS_LEASE_RECOVERY"
    · rw [processJob, if_pos hcode] at hs
      obtain rfl := Option.some.inj hs
      refine .inr ⟨⟨c, handling c j, [claimStmt c now j], some (.handling j)⟩,
        .of_put (.handle now j r (h.put _)) (by rintro _ ⟨⟩) fun j' _ hj' => ?_⟩
      cases hj'
      exact h.owner
    · rw [processJob, if_neg hcode] at hs
      exact .inl ⟨(Option.some.inj hs).symm, .inl rfl⟩
  | handle now j r h =>
    obtain ⟨⟨commits, e⟩⟩ := i
    obtain ⟨rfl, he⟩ : commits = false ∧ e ≠ .databaseError := hi j rfl
    obtain rfl := Option.some.inj hs
    exact .inr ⟨_, .of_put (.ended now j r e he (h.put _)) (fun n hn => ⟨n, hn, rfl⟩)
      (by rintro _ ⟨⟩)⟩
  | ended now j r e he h =>
    have hstep : (maintenanceModel b).exec p i s
        ⟨c, ending c j e, [claimStmt c now j], some (.handling j)⟩ =
        some (s.put p ⟨c, (closeJob c.worker c.claimToken j ⟨false, e⟩).bind fun _ => .ret (),
          [claimStmt c now j], some (.ended j ⟨false, e⟩)⟩) := rfl
    rw [closing_eq c j he] at hstep
    obtain rfl := Option.some.inj (hstep.symm.trans hs)
    refine .inr ⟨_, .of_put (.close now j r e (h.put _)) (fun n hn => ?_) (by rintro _ ⟨⟩)⟩
    cases hn
    exact ⟨_, rfl, rfl⟩
  | close now j r e h =>
    have hq : ((maintenanceSchema.view [claimStmt c now j] s.db).jobs j).any (fun job =>
        job.lockedBy == some c.worker && job.claimToken == some c.claimToken) = true := by
      rw [h.view c]
      simp [handOut]
    have hstep : (maintenanceModel b).exec p i s
        ⟨c, closing c j e, [claimStmt c now j], some (.ended j ⟨false, e⟩)⟩ =
        some (s.put p ⟨c, writing j e, [claimStmt c now j], some (.ended j ⟨false, e⟩)⟩) :=
      Model.exec_lock_held h.owner hq
    obtain rfl := Option.some.inj (hstep.symm.trans hs)
    exact .inr ⟨_, .of_put (.write now j r e (h.put _)) (fun n hn => ⟨n, hn, rfl⟩) (by rintro _ ⟨⟩)⟩
  | write now j r e h =>
    have hstep : (maintenanceModel b).exec p i s
        ⟨c, writing j e, [claimStmt c now j], some (.ended j ⟨false, e⟩)⟩ =
        some (s.put p ⟨c, committing e, [claimStmt c now j, .updateJob j (setClosed e)],
          some (.ended j ⟨false, e⟩)⟩) :=
      Model.exec_write_held (r := j) rfl h.owner (h.check_closed c e)
    obtain rfl := Option.some.inj (hstep.symm.trans hs)
    exact .inr ⟨_, .of_put (.commit now j r e (h.put _)) (fun n hn => ⟨n, hn, rfl⟩)
      (by rintro _ ⟨⟩)⟩
  | commit now j r e h =>
    have hstep : (maintenanceModel b).exec p i s ⟨c, committing e,
        [claimStmt c now j, .updateJob j (setClosed e)], some (.ended j ⟨false, e⟩)⟩ = _ :=
      Model.exec_commit_ok (h.replay c e)
    obtain rfl := Option.some.inj (hstep.symm.trans hs)
    have hfree : ∀ k, (s.release p).owner k ≠ some p := by
      intro k
      simp only [Sys.release]
      split <;> simp_all
    refine .inr ⟨⟨c, .ret (), [], some (.ended j ⟨false, e⟩)⟩, rfl, rfl,
      fun k q hq => Discipline.owner_release k hq, ?_, .closed now j r e h rfl rfl rfl hfree⟩
    refine .closed j (setClosed e (handOut c.worker c.claimToken now r)) e ?_ ?_ hfree
    · exact Function.update_self ..
    · cases e <;> rfl
  | closed j r e hr hst hfree => exact .inl ⟨(Option.some.inj hs).symm, .inr hfree⟩
  | idle l => exact .inl ⟨(Option.some.inj hs).symm, .inl rfl⟩

end Exec

/-! ## Whole runs -/

/-- Every process is in one of the phases, and only processes hold locks. -/
structure InPhases (b : Bool) (s : MaintenanceSys) : Prop where
  /-- the processes -/
  phase : ∀ p pr, s.proc p = some pr → Phase b s p pr.call pr.prog pr.pending pr.mark
  /-- no lock outlives its process -/
  owned : ∀ j p, s.owner j = some p → ∃ pr, s.proc p = some pr

/-- What a step leaves to the processes that it does not execute. -/
structure Leaves (s s' : MaintenanceSys) (q : ℕ) : Prop where
  /-- their locks -/
  owner : ∀ j, s'.owner j = some q ↔ s.owner j = some q
  /-- the rows that they have locked -/
  row : ∀ j, s.owner j = some q → s'.db.jobs j = s.db.jobs j
  /-- the jobs that are over -/
  ended : ∀ j r e, s.db.jobs j = some r → r.status = closedStatus e → s'.db.jobs j = some r

section Runs

variable {b : Bool} {s s' : MaintenanceSys} {p q : ℕ} {pr pr' : MaintenanceProc}
  {j : Uuid} {r r₀ : MaintenanceJob} {now n : ℕ} {a : MaintenanceAct} {d₀ : MaintenanceDb}

theorem Claimed.of_leaves (h : Claimed s q j r now) (hl : Leaves s s' q) :
    Claimed s' q j r now where
  owner := (hl.owner j).mpr h.owner
  row := (hl.row j h.owner).trans h.row
  claimable := h.claimable

/-- A process that waits stays in its phase. -/
theorem Phase.of_leaves {c : MaintenanceCall} {prog : MaintenanceProg Unit}
    {l : List MaintenanceStmt} {m : Option MaintenanceMark} (h : Phase b s q c prog l m)
    (hl : Leaves s s' q) : Phase b s' q c prog l m := by
  cases h with
  | start => exact .start
  | choose now => exact .choose now
  | hand now j r h => exact .hand now j r (h.of_leaves hl)
  | reread now j r h => exact .reread now j r (h.of_leaves hl)
  | process now j r r' h => exact .process now j r r' (h.of_leaves hl)
  | handle now j r h => exact .handle now j r (h.of_leaves hl)
  | ended now j r e he h => exact .ended now j r e he (h.of_leaves hl)
  | close now j r e h => exact .close now j r e (h.of_leaves hl)
  | write now j r e h => exact .write now j r e (h.of_leaves hl)
  | commit now j r e h => exact .commit now j r e (h.of_leaves hl)
  | closed j r e hr hst hfree =>
    exact .closed j r e (hl.ended j r e hr hst) hst fun i hi => hfree i ((hl.owner i).mp hi)
  | idle l => exact .idle l

/-- A job that is over cannot be claimed. -/
theorem claimable_ne_closed {e : HandlerEnd} (h : claimable now r = true) :
    r.status ≠ closedStatus e := by
  intro hst
  simp only [claimable, hst, Bool.and_eq_true, Bool.or_eq_true, beq_iff_eq] at h
  cases e <;> simp [closedStatus] at h

theorem setJob_ne {d : MaintenanceDb} {i : Uuid} (h : i ≠ j) :
    (setJob d j r).jobs i = d.jobs i := Function.update_of_ne h ..

theorem setJob_self {d : MaintenanceDb} : (setJob d j r).jobs j = some r :=
  Function.update_self ..

/-- A process that takes a step leaves the others what they rest on. -/
theorem Moves.leaves (h : Moves b s s' p pr pr') (hq : q ≠ p) : Leaves s s' q := by
  cases h.effect with
  | quiet hdb howner hjob hhandling =>
    exact ⟨fun j => h.owner j q hq, fun j _ => by rw [hdb], fun j r e hr _ => by rw [hdb, hr]⟩
  | closed now j r e hclaimed hm hm' hdb hfree =>
    refine ⟨fun k => h.owner k q hq, fun k hk => ?_, fun k r' e' hr' hst => ?_⟩
    · rw [hdb]
      refine setJob_ne fun hkj => hq ?_
      rw [hkj, hclaimed.owner] at hk
      exact (Option.some.inj hk).symm
    · rw [hdb, setJob_ne, hr']
      intro hkj
      rw [hkj, hclaimed.row] at hr'
      obtain rfl := Option.some.inj hr'
      exact claimable_ne_closed hclaimed.claimable hst

theorem leaves_drop (hq : q ≠ p) : Leaves s (s.drop p) q :=
  ⟨fun j => Discipline.owner_release j hq, fun _ _ => rfl, fun _ _ _ hr _ => hr⟩

theorem not_owner_drop {i : Uuid} : (s.drop p).owner i ≠ some p := by
  simp only [Sys.owner_drop, Sys.release]
  split <;> simp_all

theorem InPhases.drop (h : InPhases b s) (p : ℕ) : InPhases b (s.drop p) where
  phase q pr hq := by
    by_cases hqp : q = p
    · simp [hqp] at hq
    · rw [Sys.proc_drop, Function.update_of_ne hqp] at hq
      exact (h.phase q pr hq).of_leaves (leaves_drop hqp)
  owned j q hj := by
    by_cases hqp : q = p
    · exact absurd (hqp ▸ hj) not_owner_drop
    · obtain ⟨pr, hpr⟩ := h.owned j q ((Discipline.owner_release j hqp).mp hj)
      exact ⟨pr, (Function.update_of_ne hqp ..).trans hpr⟩

theorem InPhases.moves (h : InPhases b s) (hm : Moves b s s' p pr pr') : InPhases b s' where
  phase q pr₁ hq := by
    rw [hm.proc] at hq
    by_cases hqp : q = p
    · subst hqp
      rw [Function.update_self] at hq
      cases hq
      exact hm.phase
    · rw [Function.update_of_ne hqp] at hq
      exact (h.phase q pr₁ hq).of_leaves (hm.leaves hqp)
  owned j q hj := by
    rw [hm.proc]
    by_cases hqp : q = p
    · subst hqp
      exact ⟨pr', Function.update_self ..⟩
    · obtain ⟨pr₁, hpr₁⟩ := h.owned j q ((hm.owner j q hqp).mp hj)
      exact ⟨pr₁, (Function.update_of_ne hqp ..).trans hpr₁⟩

/-- What one step does in a run of clean steps. -/
inductive Stepped (b : Bool) (a : MaintenanceAct) (s s' : MaintenanceSys) : Prop where
  /-- a call arrives -/
  | spawn (p : ℕ) (c : MaintenanceCall) (ha : a = .spawn p c) (hp : s.proc p = none)
    (hs : s' = s.put p ⟨c, (maintenanceModel b).body c, [], none⟩)
  /-- a process goes on -/
  | moves (p : ℕ) (i : MaintenanceAnswer) (pr pr' : MaintenanceProc) (ha : a = .exec p i)
    (hp : s.proc p = some pr) (hm : Moves b s s' p pr pr')
  /-- a process is gone, which works on no job -/
  | drop (p : ℕ) (pr : MaintenanceProc) (hp : s.proc p = some pr)
    (hpr : pr.mark = none ∨ ∀ j, s.owner j ≠ some p) (hs : s' = s.drop p)
  /-- time passes -/
  | env (seconds : ℕ) (ha : a = .env seconds)
    (hs : s' = { s with db := { s.db with now := s.db.now + seconds } })

theorem InPhases.stepped (h : InPhases b s) (hok : CleanStep a s)
    (hs : (maintenanceModel b).step a s = some s') : Stepped b a s s' := by
  cases a with
  | spawn p c =>
    simp only [Model.step] at hs
    split at hs
    · exact .spawn p c rfl ‹_› (Option.some.inj hs).symm
    · cases hs
  | exec p i =>
    obtain ⟨pr, hp, hexec⟩ := Option.bind_eq_some_iff.mp hs
    rcases (h.phase p pr hp).exec (fun j hj => hok.1 p i pr j rfl hp hj) hexec with
      ⟨rfl, hpr⟩ | ⟨pr', hm⟩
    · exact .drop p pr hp hpr rfl
    · exact .moves p i pr pr' rfl hp hm
  | crash p =>
    obtain ⟨pr, hp, rfl⟩ := Option.map_eq_some_iff.mp hs
    refine .drop p pr hp ?_ rfl
    cases hm : pr.mark with
    | none => exact .inl rfl
    | some m => exact .inr fun j => hok.2 p pr j rfl hp (by rw [hm]; rfl)
  | env seconds => exact .env seconds rfl (Option.some.inj hs).symm

theorem InPhases.step (h : InPhases b s) (hok : CleanStep a s)
    (hs : (maintenanceModel b).step a s = some s') : InPhases b s' := by
  cases h.stepped hok hs with
  | spawn p c ha hp hs =>
    subst hs
    refine ⟨fun q pr hq => ?_, fun j q hj => ?_⟩
    · by_cases hqp : q = p
      · subst hqp
        rw [Sys.proc_put, Function.update_self] at hq
        cases hq
        exact .start
      · rw [Sys.proc_put, Function.update_of_ne hqp] at hq
        exact (h.phase q pr hq).of_leaves
          ⟨fun _ => Iff.rfl, fun _ _ => rfl, fun _ _ _ hr _ => hr⟩
    · obtain ⟨pr, hpr⟩ := h.owned j q hj
      have hqp : q ≠ p := by
        rintro rfl
        rw [hp] at hpr
        cases hpr
      exact ⟨pr, (Function.update_of_ne hqp ..).trans hpr⟩
  | moves p i pr pr' ha hp hm => exact h.moves hm
  | drop p pr hp hpr hs => exact hs ▸ h.drop p
  | env seconds ha hs =>
    subst hs
    exact ⟨fun q pr hq => (h.phase q pr hq).of_leaves
      ⟨fun _ => Iff.rfl, fun _ _ => rfl, fun _ _ _ hr _ => hr⟩, h.owned⟩

theorem inPhases (h : (maintenanceModel b).ReachableBy CleanStep d₀ s) : InPhases b s :=
  h.invariant ⟨nofun, nofun⟩ fun _ ih hok hs => ih.step hok hs

/-! ## Handlers executed -/

/-- A process works on the job: it has called its handler and holds its lock. -/
def inHand (j : Uuid) (s : MaintenanceSys) : Bool :=
  (s.owner j).any fun p => (s.proc p).any fun pr => pr.mark.any fun m => m.job == j

theorem inHand_iff : inHand j s = true ↔
    ∃ p pr m, s.owner j = some p ∧ s.proc p = some pr ∧ pr.mark = some m ∧ m.job = j := by
  simp only [inHand, Option.any_eq_true, beq_iff_eq]
  exact ⟨fun ⟨p, hp, pr, hpr, m, hm, hj⟩ => ⟨p, pr, m, hp, hpr, hm, hj⟩,
    fun ⟨p, pr, m, hp, hpr, hm, hj⟩ => ⟨p, hp, pr, hpr, m, hm, hj⟩⟩

/-- The attempts of the job, that of the process included which works on it. -/
def handlersBegun (j : Uuid) (s : MaintenanceSys) : ℕ :=
  (s.db.jobs j).elim 0 (·.attemptCount) + (inHand j s).toNat

/-- The step calls the handler of the job. -/
def Handles (j : Uuid) (a : MaintenanceAct) (s s' : MaintenanceSys) : Prop :=
  ∃ p i pr pr', a = .exec p i ∧ s.proc p = some pr ∧ s'.proc p = some pr' ∧
    pr.mark = none ∧ pr'.mark = some (.handling j)

/-- A step that changes no row and takes no job out of a hand. -/
theorem handlersBegun_le (hrow : s'.db.jobs j = s.db.jobs j)
    (h : inHand j s = true → inHand j s' = true) : handlersBegun j s ≤ handlersBegun j s' := by
  rw [handlersBegun, handlersBegun, hrow]
  exact Nat.add_le_add_left (Bool.toNat_le_toNat h) _

/-- A job in the hand of another process stays there. -/
theorem inHand_of_leaves (h : inHand j s = true)
    (hp : ∀ q, s.owner j = some q → Leaves s s' q ∧ s'.proc q = s.proc q) :
    inHand j s' = true := by
  obtain ⟨q, pr, m, howner, hpr, hm, hj⟩ := inHand_iff.mp h
  obtain ⟨hl, hproc⟩ := hp q howner
  exact inHand_iff.mpr ⟨q, pr, m, (hl.owner j).mpr howner, hproc.trans hpr, hm, hj⟩

theorem Moves.keeps_inHand (h : Moves b s s' p pr pr') (hp : s.proc p = some pr)
    (hown : s.owner j = some p → s'.owner j = some p ∧
      ∀ m, pr.mark = some m → ∃ m', pr'.mark = some m' ∧ m'.job = m.job)
    (hj : inHand j s = true) : inHand j s' = true := by
  obtain ⟨q, pr₁, m, howner, hpr₁, hm, rfl⟩ := inHand_iff.mp hj
  by_cases hqp : q = p
  · subst hqp
    obtain rfl := Option.some.inj (hp.symm.trans hpr₁)
    obtain ⟨howner', hmark⟩ := hown howner
    obtain ⟨m', hm', hjob⟩ := hmark m hm
    exact inHand_iff.mpr ⟨q, pr', m', howner', by rw [h.proc, Function.update_self], hm', hjob⟩
  · exact inHand_iff.mpr ⟨q, pr₁, m, (h.owner _ q hqp).mpr howner,
      by rw [h.proc, Function.update_of_ne hqp, hpr₁], hm, rfl⟩

/-- A process that calls the handler of a job takes it in its hand. -/
theorem Moves.handles {i : MaintenanceAnswer} (h : Moves b s s' p pr pr')
    (hp : s.proc p = some pr) (hh : Handles j (.exec p i) s s') :
    s'.db = s.db ∧ inHand j s = false ∧ inHand j s' = true := by
  obtain ⟨p₁, i₁, pr₁, pr₁', ha, hp₁, hp₁', hm₁, hm₁'⟩ := hh
  cases ha
  obtain rfl := Option.some.inj (hp.symm.trans hp₁)
  rw [h.proc, Function.update_self] at hp₁'
  obtain rfl := Option.some.inj hp₁'
  cases h.effect with
  | quiet hdb howner hjob hhandling =>
    have howner' := hhandling j hm₁ hm₁'
    refine ⟨hdb, eq_false_of_ne_true fun hj => ?_,
      inHand_iff.mpr ⟨p, pr', _, howner', by rw [h.proc, Function.update_self], hm₁', rfl⟩⟩
    obtain ⟨q, pr₂, m, hq, hpr₂, hm, -⟩ := inHand_iff.mp hj
    by_cases hqp : q = p
    · subst hqp
      obtain rfl := Option.some.inj (hp.symm.trans hpr₂)
      rw [hm₁] at hm
      cases hm
    · rw [(h.owner j q hqp).mpr hq] at howner'
      exact hqp (Option.some.inj howner')
  | closed now k r e hclaimed hm hm' hdb hfree =>
    rw [hm₁] at hm
    cases hm

theorem attemptCount_setClosed (e : HandlerEnd) (r : MaintenanceJob) :
    (setClosed e r).attemptCount = r.attemptCount := by
  cases e <;> rfl

/-- **A handler that is called counts** as an attempt, and no attempt is lost. -/
theorem handlersBegun_step (h : InPhases b s) (hok : CleanStep a s)
    (hs : (maintenanceModel b).step a s = some s') :
    handlersBegun j s ≤ handlersBegun j s' ∧
      (Handles j a s s' → handlersBegun j s + 1 ≤ handlersBegun j s') := by
  cases h.stepped hok hs with
  | spawn p c ha hp hs' =>
    subst ha hs'
    refine ⟨handlersBegun_le rfl fun hj => inHand_of_leaves hj fun q hq => ⟨⟨fun _ => Iff.rfl,
      fun _ _ => rfl, fun _ _ _ hr _ => hr⟩, Function.update_of_ne (fun hqp => ?_) ..⟩, ?_⟩
    · obtain ⟨pr, hpr⟩ := h.owned j q hq
      rw [hqp, hp] at hpr
      cases hpr
    · rintro ⟨_, _, _, _, ⟨⟩, _⟩
  | moves p i pr pr' ha hp hm =>
    subst ha
    refine ⟨?_, fun hh => ?_⟩
    · cases hm.effect with
      | quiet hdb howner hjob hhandling =>
        exact handlersBegun_le (by rw [hdb]) (hm.keeps_inHand hp fun hj => ⟨howner j hj, hjob⟩)
      | closed now k r e hclaimed hmark hmark' hdb hfree =>
        by_cases hjk : j = k
        · subst hjk
          -- the attempt of the process is now one of the row
          have hin : (inHand j s).toNat ≤ 1 := Bool.toNat_le _
          simp only [handlersBegun, hdb, setJob_self, hclaimed.row, Option.elim_some,
            attemptCount_setClosed, handOut]
          omega
        · refine handlersBegun_le (by rw [hdb, setJob_ne hjk]) fun hj => ?_
          obtain ⟨q, pr₁, m, hq, hpr₁, hm₁, rfl⟩ := inHand_iff.mp hj
          have hqp : q ≠ p := by
            rintro rfl
            obtain rfl := Option.some.inj (hp.symm.trans hpr₁)
            rw [hmark] at hm₁
            cases hm₁
            exact hjk rfl
          exact inHand_iff.mpr ⟨q, pr₁, m, (hm.owner _ q hqp).mpr hq,
            by rw [hm.proc, Function.update_of_ne hqp, hpr₁], hm₁, rfl⟩
    · obtain ⟨hdb, hfalse, htrue⟩ := hm.handles hp hh
      rw [handlersBegun, handlersBegun, hdb, hfalse, htrue]
      exact le_rfl
  | drop p pr hp hpr hs' =>
    subst hs'
    refine ⟨handlersBegun_le rfl fun hj => ?_, ?_⟩
    · obtain ⟨q, pr₁, m, hq, hpr₁, hm, hjob⟩ := inHand_iff.mp hj
      have hqp : q ≠ p := by
        rintro rfl
        obtain rfl := Option.some.inj (hp.symm.trans hpr₁)
        rcases hpr with hpr | hpr
        · rw [hpr] at hm
          cases hm
        · exact hpr j hq
      exact inHand_iff.mpr ⟨q, pr₁, m, (Discipline.owner_release j hqp).mpr hq,
        (Function.update_of_ne hqp ..).trans hpr₁, hm, hjob⟩
    · rintro ⟨q, i, pr₁, pr₁', rfl, hq, hq', hm, hm'⟩
      by_cases hqp : q = p
      · simp [hqp] at hq'
      · rw [Sys.proc_drop, Function.update_of_ne hqp, hq] at hq'
        obtain rfl := Option.some.inj hq'
        rw [hm] at hm'
        cases hm'
  | env seconds ha hs' =>
    subst ha hs'
    exact ⟨handlersBegun_le rfl id, fun ⟨_, _, _, _, ha, _⟩ => by cases ha⟩

/-- A process whose handler is called holds the job of its note, or is over. -/
theorem Phase.claimed {c : MaintenanceCall} {prog : MaintenanceProg Unit}
    {l : List MaintenanceStmt} {m : MaintenanceMark} {mark : Option MaintenanceMark}
    (h : Phase b s p c prog l mark) (hm : mark = some m) (hj : s.owner j = some p) :
    ∃ now r, Claimed s p m.job r now := by
  cases h <;> cases hm
  case handle now j r h => exact ⟨now, r, h⟩
  case ended now j r e he h => exact ⟨now, r, h⟩
  case close now j r e h => exact ⟨now, r, h⟩
  case write now j r e h => exact ⟨now, r, h⟩
  case commit now j r e h => exact ⟨now, r, h⟩
  case closed k r e hr hst hfree => exact absurd hj (hfree j)

/-- The attempts of a job that was created with `r₀`. -/
theorem row_of_inPhases (h₀ : d₀.jobs j = some r₀)
    (h : (maintenanceModel b).ReachableBy CleanStep d₀ s) :
    ∃ r, s.db.jobs j = some r ∧ r.maxAttempts = r₀.maxAttempts ∧
      r.attemptCount ≤ max r₀.attemptCount r₀.maxAttempts := by
  refine h.invariant (P := fun s => ∃ r, s.db.jobs j = some r ∧ r.maxAttempts = r₀.maxAttempts ∧
    r.attemptCount ≤ max r₀.attemptCount r₀.maxAttempts) ⟨r₀, h₀, rfl, le_max_left _ _⟩ ?_
  rintro s s' a hreach ⟨r, hr, hmax, hle⟩ hok hs
  cases (inPhases hreach).stepped hok hs with
  | spawn p c ha hp hs => exact ⟨r, by rw [hs]; exact hr, hmax, hle⟩
  | drop p pr hp hpr hs => exact ⟨r, by rw [hs]; exact hr, hmax, hle⟩
  | env seconds ha hs => exact ⟨r, by rw [hs]; exact hr, hmax, hle⟩
  | moves p i pr pr' ha hp hm =>
    cases hm.effect with
    | quiet hdb howner hjob hhandling => exact ⟨r, by rw [hdb, hr], hmax, hle⟩
    | closed now k r₁ e hclaimed hmark hmark' hdb hfree =>
      by_cases hjk : j = k
      · subst hjk
        obtain rfl := Option.some.inj (hr.symm.trans hclaimed.row)
        have hattempt := claimable_maxAttempts hclaimed.claimable
        refine ⟨_, by rw [hdb, setJob_self], ?_, ?_⟩
        · cases e <;> exact hmax
        · rw [attemptCount_setClosed]
          change r.attemptCount + 1 ≤ _
          omega
      · exact ⟨r, by rw [hdb, setJob_ne hjk, hr], hmax, hle⟩

/-- A job that is over is over for ever. -/
theorem closed_step {e : HandlerEnd} (h : InPhases b s) (hok : CleanStep a s)
    (hs : (maintenanceModel b).step a s = some s') (hr : s.db.jobs j = some r)
    (hst : r.status = closedStatus e) : s'.db.jobs j = some r := by
  cases h.stepped hok hs with
  | spawn p c ha hp hs => rw [hs]; exact hr
  | drop p pr hp hpr hs => rw [hs]; exact hr
  | env seconds ha hs => rw [hs]; exact hr
  | moves p i pr pr' ha hp hm =>
    cases hm.effect with
    | quiet hdb howner hjob hhandling => rw [hdb, hr]
    | closed now k r₁ e' hclaimed hmark hmark' hdb hfree =>
      rw [hdb, setJob_ne, hr]
      rintro rfl
      obtain rfl := Option.some.inj (hr.symm.trans hclaimed.row)
      exact claimable_ne_closed hclaimed.claimable hst

theorem closed_later {e : HandlerEnd} (h : (maintenanceModel b).ReachableBy CleanStep d₀ s)
    (hl : (maintenanceModel b).LaterBy CleanStep s s') (hr : s.db.jobs j = some r)
    (hst : r.status = closedStatus e) : s'.db.jobs j = some r := by
  induction hl with
  | refl => exact hr
  | tail hl hs ih =>
    obtain ⟨a, hok, ha⟩ := hs
    exact closed_step (inPhases (h.later hl)) hok ha ih hst

/-- A process at its end whose handler has ended has closed the job. -/
theorem Phase.closed_of_over {c : MaintenanceCall} {prog : MaintenanceProg Unit}
    {l : List MaintenanceStmt} {run : HandlerRun} {mark : Option MaintenanceMark}
    (h : Phase b s p c prog l mark) (hmark : mark = some (.ended j run))
    (hover : prog = .ret () ∨ ∃ x, prog = .raise x) :
    ∃ r, s.db.jobs j = some r ∧ r.status = closedStatus run.ending := by
  cases h <;> cases hmark
  case close now r e h => rcases hover with hover | ⟨x, hover⟩ <;> cases hover
  case write now r e h => rcases hover with hover | ⟨x, hover⟩ <;> cases hover
  case commit now r e h => rcases hover with hover | ⟨x, hover⟩ <;> cases hover
  case closed r e hst hfree hr => exact ⟨r, hr, hst⟩

/-- The attempts that have begun, of a job that was created with `r₀`. -/
theorem handlersBegun_le_max (h₀ : d₀.jobs j = some r₀)
    (h : (maintenanceModel b).ReachableBy CleanStep d₀ s) :
    handlersBegun j s ≤ max r₀.attemptCount r₀.maxAttempts := by
  obtain ⟨r, hr, hmax, hle⟩ := row_of_inPhases h₀ h
  simp only [handlersBegun, hr, Option.elim_some]
  cases hin : inHand j s with
  | false => simpa using hle
  | true =>
    obtain ⟨p, pr, m, howner, hp, hm, rfl⟩ := inHand_iff.mp hin
    obtain ⟨now, r', hclaimed⟩ := ((inPhases h).phase p pr hp).claimed hm howner
    obtain rfl := Option.some.inj (hr.symm.trans hclaimed.row)
    have := claimable_maxAttempts hclaimed.claimable
    simp only [Bool.toNat_true]
    omega

theorem handled_le (h₀ : d₀.jobs j = some r₀)
    (h : (maintenanceModel b).CountedBy CleanStep (Handles j) d₀ n s) :
    n ≤ r₀.maxAttempts - r₀.attemptCount := by
  have hn := h.add_le_potential (f := handlersBegun j) fun hreach hok hs =>
    handlersBegun_step (inPhases hreach) hok hs
  have hmax := handlersBegun_le_max h₀ h.reachableBy
  have hstart : handlersBegun j (Model.idle d₀ : MaintenanceSys) = r₀.attemptCount := by
    simp [handlersBegun, inHand, Model.idle, h₀]
  omega

/-- **Bounded and closed maintenance jobs**, in runs in which no handler commits or
meets a database error and no worker dies while it works on a job: the handler of a
job is called at most `max_attempts` times, and the job that it has left is, from
the end of the process on, completed if the handler returned and failed if it raised. -/
theorem maintenance_bounded_and_closed (ownerBypassesRls : Bool) (d₀ : MaintenanceDb) (j : Uuid)
    (r₀ : MaintenanceJob) (n : ℕ) (s : MaintenanceSys) (h₀ : d₀.jobs j = some r₀)
    (h : (maintenanceModel ownerBypassesRls).CountedBy CleanStep (Handles j) d₀ n s) :
    n ≤ r₀.maxAttempts ∧
      ∀ (p : ℕ) (pr : MaintenanceProc) (i : Uuid) (run : HandlerRun),
        s.proc p = some pr → pr.mark = some (.ended i run) →
        (pr.prog = .ret () ∨ ∃ x, pr.prog = .raise x) →
        ∀ s', (maintenanceModel ownerBypassesRls).LaterBy CleanStep s s' →
          ∃ r, s'.db.jobs i = some r ∧ (run.ending = .returned → r.status = .completed) ∧
            (run.ending ≠ .returned → r.status = .failed) := by
  have hreach := h.reachableBy
  refine ⟨?_, fun p pr i run hp hm hover s' hl => ?_⟩
  · have hn := handled_le h₀ h
    omega
  · obtain ⟨r, hr, hst⟩ := ((inPhases hreach).phase p pr hp).closed_of_over hm hover
    refine ⟨r, closed_later hreach hl hr hst, fun hend => ?_, fun hend => ?_⟩
    · rw [hst, hend]
      rfl
    · rw [hst]
      cases he : run.ending with
      | returned => exact absurd he hend
      | raised => rfl
      | databaseError => rfl

/-! ## Concrete runs -/

/-- The step calls the handler of the job. -/
def handlesJob (j : Uuid) (a : MaintenanceAct) (s s' : MaintenanceSys) : Bool :=
  match a with
  | .exec p _ => (s.proc p).any (·.mark == none) &&
    (s'.proc p).any (·.mark == some (.handling j))
  | _ => false

theorem handles_of_handlesJob (h : handlesJob j a s s' = true) : Handles j a s s' := by
  cases a with
  | exec p i =>
    obtain ⟨h, h'⟩ := Bool.and_eq_true_iff.mp h
    obtain ⟨pr, hp, hm⟩ := (Option.any_eq_true _ _).mp h
    obtain ⟨pr', hp', hm'⟩ := (Option.any_eq_true _ _).mp h'
    exact ⟨p, i, pr, pr', rfl, hp, hp', eq_of_beq hm, eq_of_beq hm'⟩
  | _ => cases h

/-- No worker dies, and a handler neither commits nor meets a database error. -/
def cleanAct (a : MaintenanceAct) (_ : MaintenanceSys) : Bool :=
  match a with
  | .exec _ i => i.handler.commits == false && i.handler.ending != .databaseError
  | .crash _ => false
  | _ => true

theorem cleanStep_of_cleanAct (h : cleanAct a s = true) : CleanStep a s := by
  cases a with
  | exec p i =>
    obtain ⟨hc, he⟩ := Bool.and_eq_true_iff.mp h
    refine ⟨fun p' i' pr j ha _ _ => ?_, nofun⟩
    cases ha
    exact ⟨eq_of_beq hc, by simpa using he⟩
  | crash p => cases h
  | spawn p c => exact ⟨nofun, nofun⟩
  | env seconds => exact ⟨nofun, nofun⟩

/-- A database with one job to claim. -/
def oneMaintenanceJob : MaintenanceDb where
  now := 0
  jobIds := [7]
  jobs := Function.update (fun _ => none) 7
    (some ⟨"CLARIFICATION_EXPIRY", 1, .queued, 0, none, none, none, 0, 3, none⟩)

/-- The process `0` is at its end, and its handler has ended with `run`. -/
def isOverWith (j : Uuid) (run : HandlerRun) (s : MaintenanceSys) : Bool :=
  (s.proc 0).any fun pr => pr.mark == some (.ended j run) &&
    match pr.prog with
    | .ret _ => true
    | _ => false

theorem over_of_isOverWith {run : HandlerRun} (h : isOverWith j run s = true) :
    ∃ pr, s.proc 0 = some pr ∧ pr.mark = some (.ended j run) ∧ pr.prog = .ret () := by
  obtain ⟨⟨c, prog, pending, mark⟩, hp, hpr⟩ := (Option.any_eq_true _ _).mp h
  obtain ⟨hm, hprog⟩ := Bool.and_eq_true_iff.mp hpr
  refine ⟨_, hp, eq_of_beq hm, ?_⟩
  cases prog <;> first | rfl | cases hprog

/-- A handler that returns completes its job. -/
theorem maintenance_bounded_and_closed_once : ∃ (n : ℕ) (s : MaintenanceSys) (r : MaintenanceJob),
    (maintenanceModel true).CountedBy CleanStep (Handles 7) oneMaintenanceJob n s ∧ 1 ≤ n ∧
      n ≤ 3 ∧ s.db.jobs 7 = some r ∧ r.status = .completed := by
  have hrun : ((maintenanceModel true).countBy cleanAct (handlesJob 7)
      (Model.serve 0 ⟨"w", 5⟩ 10 ⟨⟨false, .returned⟩⟩) (Model.idle oneMaintenanceJob)).map
        (fun x => (x.1, isOverWith 7 ⟨false, .returned⟩ x.2)) = some (1, true) := by
    decide
  obtain ⟨⟨m, s⟩, hm, hx⟩ := Option.map_eq_some_iff.mp hrun
  obtain ⟨rfl, hover⟩ : m = 1 ∧ isOverWith 7 ⟨false, .returned⟩ s = true := by simpa using hx
  obtain ⟨pr, hp, hmark, hprog⟩ := over_of_isOverWith hover
  obtain ⟨n, hn, hcount⟩ := Model.CountedBy.countBy (P := fun _ => True)
    (fun _ _ _ ht => cleanStep_of_cleanAct ht) (fun _ _ _ _ _ _ => trivial)
    (fun _ _ _ hk => handles_of_handlesJob hk) .start trivial hm
  obtain ⟨hle, hclosed⟩ := maintenance_bounded_and_closed true oneMaintenanceJob 7 _ n s rfl hcount
  obtain ⟨r, hr, hcompleted, -⟩ := hclosed 0 pr 7 _ hp hmark (.inl hprog) s .refl
  exact ⟨n, s, r, hcount, by omega, hle, hr, hcompleted rfl⟩

/-- **Handlers are not bounded**: each of four handlers meets a database error. -/
theorem maintenance_handlers_unbounded :
    ¬ ∀ (ownerBypassesRls : Bool) (d₀ : MaintenanceDb) (j : Uuid) (r₀ : MaintenanceJob) (n : ℕ)
      (s : MaintenanceSys), d₀.jobs j = some r₀ →
        (maintenanceModel ownerBypassesRls).Counted (Handles j) d₀ n s → n ≤ r₀.maxAttempts := by
  intro hbounded
  have hrun : ((maintenanceModel true).countBy (fun _ _ => true) (handlesJob 7)
      (Model.serve 0 ⟨"w", 5⟩ 8 ⟨⟨false, .databaseError⟩⟩ ++
        Model.serve 0 ⟨"w", 6⟩ 8 ⟨⟨false, .databaseError⟩⟩ ++
        Model.serve 0 ⟨"w", 7⟩ 8 ⟨⟨false, .databaseError⟩⟩ ++
        Model.serve 0 ⟨"w", 8⟩ 8 ⟨⟨false, .databaseError⟩⟩)
      (Model.idle oneMaintenanceJob)).map (fun x => x.1) = some 4 := by
    decide
  obtain ⟨⟨m, s⟩, hm, rfl⟩ := Option.map_eq_some_iff.mp hrun
  obtain ⟨n, hn, hcount⟩ := Model.CountedBy.countBy (P := fun _ => True)
    (fun _ _ _ _ => trivial) (fun _ _ _ _ _ _ => trivial)
    (fun _ _ _ hk => handles_of_handlesJob hk) .start trivial hm
  have := hbounded true oneMaintenanceJob 7 _ n s rfl hcount
  change n ≤ 3 at this
  omega

end Runs

end FinanceIntelligence
