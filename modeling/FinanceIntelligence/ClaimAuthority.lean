import FinanceIntelligence.EventEngine
import Mathlib.Data.Prod.Lex

/-!
# Claim authority

The database functions that hand analysis jobs to workers:
`claim_next_analysis_job`, `recover_next_stale_analysis_job` and
`renew_analysis_job_lease`.

A claim and a recovery lock the row that they pick and pass over rows that others have locked, so
that a job is handed to one worker at a time. A recovery takes a job once; a renewal asks for the
token.
-/

namespace FinanceIntelligence

namespace ClaimAuthority

open AnalysisProg

/-- A worker id the functions refuse: blank, too long or with a control
character. -/
def unsafeWorkerId (w : String) : Bool :=
  w.toList.all (· == ' ') || 100 < w.length ||
    w.toList.any fun c => c.toNat < 32 || c.toNat == 127

/-- The job waits for a worker. -/
def claimable (r : JobRows) : Bool :=
  r.job.status == .received && r.job.claimToken.isNone && r.job.lockedBy.isNone &&
    r.job.leaseExpiresAt.isNone

/-- The lease has passed. -/
def leasePassed (now : ℕ) (job : AnalysisJob) : Bool := job.leaseExpiresAt.any (· < now)

/-- The job can be taken from a worker that let its lease pass. -/
def recoverable (now : ℕ) (r : JobRows) : Bool :=
  r.job.status.isRecoverable && r.job.claimToken.isSome && leasePassed now r.job &&
    r.job.recoveryCount == 0

/-- The jobs that meet a condition, by a key and then by id. -/
def ordered (q : JobRows → Bool) (key : AnalysisJob → ℕ × ℕ) (d : AnalysisDb) : List Row :=
  let l := d.jobs.filter fun (_, r) => q r
  let before := fun (x y : Uuid × JobRows) =>
    toLex ((key x.2.job).1, toLex ((key x.2.job).2, x.1.toNat)) ≤
      toLex ((key y.2.job).1, toLex ((key y.2.job).2, y.1.toNat))
  (l.insertionSort before).map fun (j, _) => .job j

/-- The job row handed to the worker `w`. -/
def handOut (w : String) (token : Uuid) (now : ℕ) (job : AnalysisJob) : AnalysisJob :=
  { job with
    status := .received
    lockedBy := some w
    claimToken := some token
    leaseExpiresAt := some (now + leaseSeconds) }

/-- `claim_next_analysis_job`: the oldest waiting job and its new token. -/
def claimNextAnalysisJob (w : String) : AnalysisProg (Option (Uuid × Uuid)) :=
  if unsafeWorkerId w then .raise (.outside none none)
  else
    .lockSkip (ordered claimable fun job => (job.createdAt, 0)) 1 fun l =>
      match l with
      | .job j :: _ => do
        let token ← uuid4
        let d ← select
        execute (.onJob j (.updateJob (handOut w token d.now)))
        return some (j, token)
      | _ => .ret none

/-- `recover_next_stale_analysis_job`: the job whose lease passed first, its
running attempts abandoned, and its new token. -/
def recoverNextStaleAnalysisJob (w : String) : AnalysisProg (Option (Uuid × Uuid)) :=
  if unsafeWorkerId w then .raise (.outside none none)
  else
    .lockSkip (fun d => ordered (recoverable d.now)
        (fun job => (job.leaseExpiresAt.getD 0, job.createdAt)) d) 1 fun l =>
      match l with
      | .job j :: _ => do
        execute (.onJob j (.updateAttempts (fun a => a.status == .running) .abandoned))
        let token ← uuid4
        let d ← select
        execute (.onJob j (.updateJob fun job =>
          { handOut w token d.now job with recoveryCount := job.recoveryCount + 1 }))
        return some (j, token)
      | _ => .ret none

/-- The job is the worker's, by its token, and still worked on. -/
def ownedBy (token : Uuid) (w : String) (r : JobRows) : Bool :=
  r.job.claimToken == some token && r.job.lockedBy == some w && r.job.status.isWorking

/-- `renew_analysis_job_lease` and the commit of the session that calls it. -/
def renewAnalysisJobLease (j token : Uuid) (w : String) : AnalysisProg Unit := do
  if !unsafeWorkerId w then
    if ← lockJob j (ownedBy token w) then
      let d ← select
      execute (.onJob j (.updateJob fun job =>
        { job with leaseExpiresAt := some (d.now + leaseSeconds) }))
  commit

end ClaimAuthority

end FinanceIntelligence
