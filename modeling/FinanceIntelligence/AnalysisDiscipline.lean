import FinanceIntelligence.AnalysisCalls

/-!
# What a commit may do to a job

`JobStep` lists, for one job, every change that a committed transaction of the
analysis plane makes to its rows. It is the abstract job: one constructor for each
way in which a claim, a recovery, a renewal, an engine, an answer, an expiry or a
cancellation changes it, with the guard that the transaction has checked under the
row lock. `analysisDiscipline` states that every commit of every call changes each
job by such a step, or not at all.

What holds along the runs of the plane (fencing, leases, attempts, events, terminal
statuses) is proved from these steps alone, one case a constructor. When a program
changes, its own proof in `CallsSafe` or `EngineSafe` is what has to be done again.
-/

namespace FinanceIntelligence

open ClaimAuthority OrchestratorEngine

/-- The job stores the request that a run understood. -/
def JobRows.isNormalized (r : JobRows) : Bool := r.job.normalizedRequest.isNormalized

/-! ## The tables around the job row -/

/-- The event announces the end of an analysis. -/
def EventType.isTerminal : EventType → Bool
  | .completed | .failed | .clarificationExpired => true
  | _ => false

/-- Events are added, and none of them announces an end. -/
def Quiet (l l' : List AnalysisEvent) : Prop :=
  ∃ new, l' = l ++ new ∧ ∀ e ∈ new, e.eventType.isTerminal = false

/-- Events are added; the last of them, and no other, announces an end. -/
def Announces (t : EventType) (l l' : List AnalysisEvent) : Prop :=
  ∃ l₁ e, Quiet l l₁ ∧ l' = l₁ ++ [e] ∧ e.eventType = t

namespace Quiet

variable {l l' : List AnalysisEvent} {e : AnalysisEvent}

theorem refl (l : List AnalysisEvent) : Quiet l l := ⟨[], by simp, fun _ he => by cases he⟩

theorem isPrefix (h : Quiet l l') : l <+: l' := by
  obtain ⟨new, rfl, -⟩ := h
  exact List.prefix_append _ _

/-- One more event. -/
theorem emit (h : Quiet l l') (he : e.eventType.isTerminal = false) : Quiet l (l' ++ [e]) := by
  obtain ⟨new, rfl, hnew⟩ := h
  refine ⟨new ++ [e], List.append_assoc .., fun x hx => ?_⟩
  rcases List.mem_append.mp hx with hx | hx
  · exact hnew x hx
  · rwa [List.mem_singleton.mp hx]

/-- The event that announces the end. -/
theorem announce (h : Quiet l l') : Announces e.eventType l (l' ++ [e]) := ⟨l', e, h, rfl, rfl⟩

end Quiet

theorem Announces.isPrefix {t : EventType} {l l' : List AnalysisEvent} (h : Announces t l l') :
    l <+: l' := by
  obtain ⟨l₁, e, hquiet, rfl, -⟩ := h
  exact hquiet.isPrefix.trans (List.prefix_append _ _)

/-- The attempts, with the one that a run has opened in its transaction. -/
def opened (run : Option Uuid) (l : List AnalysisAttempt) : List AnalysisAttempt :=
  match run with
  | none => l
  | some id => l ++ [⟨id, l.length + 1, .inProgress⟩]

/-- The attempts, with that of an id in another status. -/
def marked (id : Uuid) (st : AttemptStatus) (l : List AnalysisAttempt) : List AnalysisAttempt :=
  l.map fun a => if a.id == id then { a with status := st } else a

/-- A run ends: its attempt is closed, which it may have opened in the same
transaction, or the opening was rolled back and there is nothing to close. -/
inductive ClosesRun (l l' : List AnalysisAttempt) : Prop where
  /-- nothing to close -/
  | rolledBack (h : l' = l)
  /-- the attempt of the run -/
  | own (id : Uuid) (st : AttemptStatus) (run : Option Uuid) (hrun : run = none ∨ run = some id)
      (hst : st ≠ .inProgress) (h : l' = marked id st (opened run l))

/-- The clarification `cl`, which waits or has this status already, is settled. -/
structure Settles (cl : Uuid) (st : ClarificationStatus) (r r' : JobRows) : Prop where
  /-- there is one -/
  mem : ∃ x ∈ r.clarifications, x.id = cl
  /-- the trigger lets it be settled -/
  trigger : ∀ x ∈ r.clarifications, x.id = cl → x.status = .awaiting ∨ x.status = st
  /-- it has the status; the others are as they were -/
  settled : ∃ set : AnalysisClarification → AnalysisClarification,
    (∀ x, (set x).id = x.id ∧ (set x).status = st) ∧
      r'.clarifications = r.clarifications.map fun x => if x.id = cl then set x else x

/-- The clarification `cl` of a job waits for its answer. -/
def Awaits (cl : Uuid) (r : JobRows) : Prop :=
  ∃ x ∈ r.clarifications, x.id = cl ∧ x.status = .awaiting

/-- One clarification of a job waits at most. -/
def OneAwaiting (r : JobRows) : Prop := r.clarifications.countP (·.status == .awaiting) ≤ 1

/-! ## Steps -/

/-- What a transaction of the engine has done so far to the rows `r`, leaving
the job in the status `st`; with `understood` if it has stored its request, and
with the attempt `run` that it has opened, if it has. -/
structure Progress (understood : Bool) (run : Option Uuid) (r r' : JobRows)
    (st : AnalysisJobStatus) : Prop where
  /-- the claim and the request are as they were -/
  job : ∃ req, r'.job = { r.job with status := st, normalizedRequest := req }
  /-- events are added at the end -/
  quiet : Quiet r.events r'.events
  /-- the sequences have no gap -/
  numbered : Numbered r'.events
  /-- no question is asked or answered -/
  clarifications : r'.clarifications = r.clarifications
  /-- nothing is published -/
  snapshots : r'.snapshots = r.snapshots
  /-- a request is stored, or an earlier one is kept -/
  request : understood = true ∨ r.isNormalized = true → r'.isNormalized = true
  /-- no attempt is closed -/
  attempts : r'.attempts = opened run r.attempts

/-- What a committed transaction of the engine does. -/
inductive EngineChange (cfg : EngineConfig) (r r' : JobRows) : Prop where
  /-- the compare tool committed the session -/
  | toolCommitted {run : Option Uuid} (h : Progress true run r r' .executingTools)
  /-- a question was asked -/
  | clarified (clar : AnalysisClarification) (hclar : clar.status = .awaiting)
      (hjob : ∃ req, r'.job =
        { r.job with status := .needsClarification, normalizedRequest := req })
      (hevents : Quiet r.events r'.events)
      (hclars : r'.clarifications = r.clarifications ++ [clar])
      (hsnap : r'.snapshots = r.snapshots)
      (hreq : r.isNormalized = true → r'.isNormalized = true)
      (hnone : ∀ x ∈ r.clarifications, x.status ≠ .awaiting)
      (hattempts : ∃ id, r'.attempts = opened (some id) r.attempts)
      (hnumber : clar.attemptNumber = r'.attempts.length)
  /-- the job was rejected or failed -/
  | ended (st : AnalysisJobStatus) (hst : st = .rejectedByPolicy ∨ st = .failed)
      (hjob : ∃ req, r'.job = OrchestratorEngine.ended st { r.job with normalizedRequest := req })
      (hevents : Announces .failed r.events r'.events)
      (hclars : r'.clarifications = r.clarifications)
      (hsnap : r'.snapshots = r.snapshots)
      (hreq : r.isNormalized = true → r'.isNormalized = true)
      (hattempts : ClosesRun r.attempts r'.attempts)
  /-- the job was completed, with a narrative that passed the gates -/
  | completed (id : Uuid) (narrative : String) (datasetId : Uuid) (gates : List GateResult)
      (hgates : QualityGateEngine.runAllGates cfg.chars narrative (datasetSummary datasetId) =
        .ok gates)
      (hjob : ∃ req, r'.job =
        OrchestratorEngine.ended .completed { r.job with normalizedRequest := req })
      (hevents : Announces .completed r.events r'.events)
      (hclars : r'.clarifications = r.clarifications)
      (hold : r.snapshots = []) (hsnap : r'.snapshots = [.engine id narrative datasetId])
      (hreq : r'.isNormalized = true) (hattempts : ClosesRun r.attempts r'.attempts)

/-- What a committed transaction may do to the rows of a job, by the call that
commits and what it noted last. -/
inductive JobStep (cfg : EngineConfig) (c : AnalysisCall) (m : Option Mark) (j : Uuid)
    (r r' : JobRows) : Prop where
  /-- a waiting job is handed out -/
  | claim (w : String) (token : Uuid) (now : ℕ) (hc : c = .runOnce w) (hm : m = none)
      (hr : claimable r = true) (hr' : r' = { r with job := handOut w token now r.job })
  /-- a stale job is handed out again -/
  | recover (w : String) (token : Uuid) (now : ℕ) (hc : c = .runOnce w) (hm : m = none)
      (hr : ∃ t, recoverable t r = true)
      (hr' : ∃ attempts, r' = { r with
        attempts
        job := { handOut w token now r.job with recoveryCount := r.job.recoveryCount + 1 } })
      (hattempts : r'.attempts = r.attempts.map fun a =>
        if a.status == .running then { a with status := .abandoned } else a)
  /-- a lease is renewed -/
  | renew (token : Uuid) (w : String) (lease : ℕ) (hc : c = .renewLease j token w)
      (hr : ownedBy token w r = true)
      (hr' : r' = { r with job := { r.job with leaseExpiresAt := some lease } })
  /-- a fenced transaction of an engine run -/
  | engine (token : Uuid) (w : String)
      (hm : m = some (.executing j token w)) (hr : ownedBy token w r = true)
      (hr' : EngineChange cfg r r')
  /-- an answer came too late -/
  | answerExpired (clar user : Uuid) (payload : List (String × String))
      (hc : c = .respond j clar user payload) (hr : r.job.status = .needsClarification)
      (hjob : r'.job = { r.job with status := .expired }) (hevents : r'.events = r.events)
      (hsnap : r'.snapshots = r.snapshots) (hclars : Settles clar .expired r r')
      (hopen : Awaits clar r) (hattempts : r'.attempts = r.attempts)
  /-- a question was answered -/
  | answered (clar user : Uuid) (payload : List (String × String))
      (hc : c = .respond j clar user payload) (hr : r.job.status = .needsClarification)
      (hjob : r'.job = { r.job with status := .understandingRequest })
      (hevents : Quiet r.events r'.events) (hsnap : r'.snapshots = r.snapshots)
      (hclars : Settles clar .received r r') (hopen : Awaits clar r)
      (hattempts : ∃ id, ∃ x ∈ r.clarifications, x.id = clar ∧ x.status = .awaiting ∧
        r'.attempts = r.attempts ++ [⟨id, x.attemptNumber + 1, .inProgress⟩])
  /-- a question was cancelled, and its job with it -/
  | clarificationCancelled (clar user : Uuid) (hc : c = .cancelClarification j clar user)
      (hr : r.job.status.isTerminal = false)
      (hjob : r'.job = { r.job with status := .cancelled }) (hevents : r'.events = r.events)
      (hsnap : r'.snapshots = r.snapshots) (hclars : Settles clar .cancelled r r')
      (hattempts : r'.attempts = r.attempts)
  /-- a question expired, and its job unless it has ended -/
  | clarificationExpired (n : ℕ) (hc : c = .expireDueClarifications n)
      (hjob : r.job.status = .needsClarification ∧ r'.job = { r.job with status := .expired } ∨
        r.job.status.isTerminal = true ∧ r'.job = r.job)
      (hevents : Announces .clarificationExpired r.events r'.events)
      (hsnap : r'.snapshots = r.snapshots)
      (hclars : ∃ clar, Settles clar .expired r r' ∧ Awaits clar r)
      (hattempts : r'.attempts = r.attempts)
  /-- a user cancelled the job; nothing is known of its status by then -/
  | analysisCancelled (user : Uuid) (hc : c = .cancelAnalysis j user)
      (hr' : r' = { r with job := { r.job with status := .cancelled } })
  /-- the save tool ran; nothing is known of the status by then -/
  | saved (summary : String) (id : Uuid) (hc : c = .saveAnalysis j summary)
      (hold : r.snapshots = [])
      (hr' : r' = { r with
        job := { r.job with status := .completed }
        snapshots := [.saved id summary] })

/-- A job that no worker has been given. -/
structure AnalysisJob.Fresh (job : AnalysisJob) : Prop where
  /-- it waits -/
  status : job.status = .received
  /-- it has no token -/
  token : job.claimToken = none
  /-- it has no owner -/
  owner : job.lockedBy = none
  /-- it has no lease -/
  lease : job.leaseExpiresAt = none
  /-- it was never recovered -/
  count : job.recoveryCount = 0

/-- A request that a run understood stays, or another one takes its place. -/
theorem JobStep.isNormalized {cfg : EngineConfig} {c : AnalysisCall} {m : Option Mark} {j : Uuid}
    {r r' : JobRows} (h : JobStep cfg c m j r r') (hr : r.isNormalized = true) :
    r'.isNormalized = true := by
  cases h with
  | claim w token now _ _ _ hr' =>
    subst hr'
    exact hr
  | recover w token now _ _ _ hr' =>
    obtain ⟨attempts, rfl⟩ := hr'
    exact hr
  | renew token w lease _ _ hr' =>
    subst hr'
    exact hr
  | engine token w _ _ hr' =>
    cases hr' with
    | toolCommitted h => exact h.request (.inr hr)
    | clarified _ _ _ _ _ _ hreq => exact hreq hr
    | ended _ _ _ _ _ _ hreq => exact hreq hr
    | completed _ _ _ _ _ _ _ _ _ _ hreq => exact hreq
  | answerExpired clar user payload _ _ hjob =>
    rw [JobRows.isNormalized, hjob]
    exact hr
  | answered clar user payload _ _ hjob =>
    rw [JobRows.isNormalized, hjob]
    exact hr
  | clarificationCancelled clar user _ _ hjob =>
    rw [JobRows.isNormalized, hjob]
    exact hr
  | clarificationExpired n _ hjob =>
    rcases hjob with ⟨-, hjob⟩ | ⟨-, hjob⟩ <;> rw [JobRows.isNormalized, hjob] <;> exact hr
  | analysisCancelled user _ hr' =>
    subst hr'
    exact hr
  | saved summary id _ _ hr' =>
    subst hr'
    exact hr

/-- What is settled does not wait. -/
theorem Settles.oneAwaiting {cl : Uuid} {st : ClarificationStatus} {r r' : JobRows}
    (h : Settles cl st r r') (hst : st ≠ .awaiting) (hr : OneAwaiting r) : OneAwaiting r' := by
  obtain ⟨set, hset, hclars⟩ := h.settled
  rw [OneAwaiting, hclars, List.countP_map]
  refine Nat.le_trans (List.countP_mono_left fun x _ hx => ?_) hr
  rw [Function.comp_apply] at hx
  split at hx
  · rw [(hset x).2, beq_iff_eq] at hx
    exact absurd hx hst
  · exact hx

/-- A step leaves at most one clarification waiting. -/
theorem JobStep.oneAwaiting {cfg : EngineConfig} {c : AnalysisCall} {m : Option Mark} {j : Uuid}
    {r r' : JobRows} (h : JobStep cfg c m j r r') (hr : OneAwaiting r) : OneAwaiting r' := by
  have hsame : r'.clarifications = r.clarifications → OneAwaiting r' := by
    intro hclars
    rwa [OneAwaiting, hclars]
  cases h with
  | claim w token now _ _ _ hr' => exact hsame (by rw [hr'])
  | recover w token now _ _ _ hr' =>
    obtain ⟨attempts, hr'⟩ := hr'
    exact hsame (by rw [hr'])
  | renew token w lease _ _ hr' => exact hsame (by rw [hr'])
  | engine token w _ _ hr' =>
    cases hr' with
    | toolCommitted h => exact hsame h.clarifications
    | clarified clar hclar _ _ hclars _ _ hnone =>
      have hzero : r.clarifications.countP (·.status == .awaiting) = 0 :=
        List.countP_eq_zero.mpr fun x hx => by simpa using hnone x hx
      rw [OneAwaiting, hclars, List.countP_append, hzero, List.countP_singleton]
      split <;> omega
    | ended _ _ _ _ hclars => exact hsame hclars
    | completed _ _ _ _ _ _ _ hclars => exact hsame hclars
  | answerExpired _ _ _ _ _ _ _ _ hclars => exact hclars.oneAwaiting (by decide) hr
  | answered _ _ _ _ _ _ _ _ hclars => exact hclars.oneAwaiting (by decide) hr
  | clarificationCancelled _ _ _ _ _ _ _ hclars => exact hclars.oneAwaiting (by decide) hr
  | clarificationExpired _ _ _ _ _ hclars =>
    obtain ⟨clar, hclars, -⟩ := hclars
    exact hclars.oneAwaiting (by decide) hr
  | analysisCancelled user _ hr' => exact hsame (by rw [hr'])
  | saved summary id _ _ hr' => exact hsame (by rw [hr'])

/-- The rows of a job after a commit: as they were, new, or a step further. -/
inductive RowsChange (cfg : EngineConfig) (c : AnalysisCall) (m : Option Mark) (j : Uuid) :
    Option JobRows → Option JobRows → Prop where
  /-- as they were -/
  | same (o : Option JobRows) : RowsChange cfg c m j o o
  /-- a job was created -/
  | created (user : Uuid) (prompt : String) (key : Option String) (documents : List Uuid)
      (job : AnalysisJob) (hc : c = .createAnalysis user prompt key documents) (hjob : job.Fresh) :
      RowsChange cfg c m j none (some { job })
  /-- a step further -/
  | step {r r' : JobRows} (h : JobStep cfg c m j r r') : RowsChange cfg c m j (some r) (some r')

/-- A commit changes every job by a step or not at all. -/
def Committed (cfg : EngineConfig) (c : AnalysisCall) (m : Option Mark) (d d' : AnalysisDb) : Prop :=
  d'.now = d.now ∧ ∀ j, RowsChange cfg c m j (d.rows j) (d'.rows j)

/-- The job `j` stores the request of a run. -/
def Understood (j : Uuid) (d : AnalysisDb) : Prop :=
  ∃ r, d.rows j = some r ∧ r.isNormalized = true

/-- A job that stores the request of a run goes on doing so. -/
def KeepsRequests (d d' : AnalysisDb) : Prop := ∀ j, Understood j d → Understood j d'

theorem Understood.evolves {j : Uuid} {d d' : AnalysisDb} (h : Understood j d)
    (hd : KeepsRequests d d') : Understood j d' := hd j h

theorem Committed.keepsRequests {cfg : EngineConfig} {c : AnalysisCall} {m : Option Mark}
    {d d' : AnalysisDb} (h : Committed cfg c m d d') : KeepsRequests d d' := by
  rintro j ⟨r, hr, hreq⟩
  have hchange := h.2 j
  rw [hr] at hchange
  rw [Understood]
  generalize d'.rows j = o at hchange ⊢
  cases hchange with
  | same => exact ⟨r, rfl, hreq⟩
  | step hstep => exact ⟨_, rfl, hstep.isNormalized hreq⟩

/-- What holds of the contents between transactions. -/
structure AnalysisInv (d : AnalysisDb) : Prop where
  /-- a job is listed once -/
  jobIds : d.jobIds.Nodup
  /-- what is listed exists -/
  listed : ∀ j ∈ d.jobIds, (d.rows j).isSome = true
  /-- the events count from one -/
  numbered : ∀ j r, d.rows j = some r → Numbered r.events
  /-- one clarification waits at most -/
  oneAwaiting : ∀ j r, d.rows j = some r → OneAwaiting r

theorem emptyAnalysisDb_inv (now : ℕ) : AnalysisInv (emptyAnalysisDb now) where
  jobIds := List.nodup_nil
  listed _ hj := by cases hj
  numbered _ _ hr := by cases hr
  oneAwaiting _ _ hr := by cases hr

/-- The clarifications with an id are still there, as they are. -/
def KeepsClarification (j cl : Uuid) (d d' : AnalysisDb) : Prop :=
  ∀ r, d.rows j = some r → ∃ r', d'.rows j = some r' ∧
    ∀ x ∈ r.clarifications, x.id = cl → x ∈ r'.clarifications

theorem KeepsClarification.refl (j cl : Uuid) (d : AnalysisDb) : KeepsClarification j cl d d :=
  fun r hr => ⟨r, hr, fun _ hx _ => hx⟩

theorem KeepsClarification.trans {j cl : Uuid} {d₁ d₂ d₃ : AnalysisDb}
    (h : KeepsClarification j cl d₁ d₂) (h' : KeepsClarification j cl d₂ d₃) :
    KeepsClarification j cl d₁ d₃ := by
  intro r hr
  obtain ⟨r', hr', hkeep⟩ := h r hr
  obtain ⟨r'', hr'', hkeep'⟩ := h' r' hr'
  exact ⟨r'', hr'', fun x hx hid => hkeep' x (hkeep x hx hid) hid⟩

/-- The lock on a job row protects all rows of the job, as every writer of the
job takes it; the lock on a clarification protects the clarification. -/
def analysisDiscipline (cfg : EngineConfig) : Discipline (analysisModel cfg) where
  agree
    | .job j, d, d' => d'.rows j = d.rows j
    | .clarification j c, d, d' => KeepsClarification j c d d'
  agree_refl r d := by
    cases r with
    | job j => rfl
    | clarification j c => exact .refl j c d
  agree_trans r _ _ _ h h' := by
    cases r with
    | job j => exact Eq.trans h' h
    | clarification j c => exact KeepsClarification.trans h h'
  inv := AnalysisInv
  evolves := KeepsRequests
  evolves_refl _ _ hj := hj
  evolves_trans _ _ _ h h' j hj := h' j (h j hj)
  guar := Committed cfg
  guar_evolves _ _ _ _ h := h.keepsRequests
  noted _ _ _ := True
  raised _ _ := True
  sound s := ∃ j e, s = .onJob j (.insertEvent e)

end FinanceIntelligence
