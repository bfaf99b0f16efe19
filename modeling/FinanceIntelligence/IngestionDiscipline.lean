import FinanceIntelligence.IngestionWorker

/-!
# What the ingestion calls may commit

The lock on a job row protects the job and its document version: whoever writes
either holds it. `IngestionStep` lists what a committed transaction does: an
upload creates a job with its version, and a worker claims a job, or ends an
attempt of it, with what the parser found or with a failure.

A commit of a worker is lawful only while the job carries the token that the worker was given:
this is the fence that the runs rest on.
-/

namespace FinanceIntelligence

open IngestionQueue IngestionWorker

/-- The statuses of a job and of its version agree: both wait, the job is being
parsed, or both ended in the same way. -/
def InStep (job version : IngestionStatus) : Prop :=
  (job = .queued ∨ job = .parsing) ∧ version = .queued ∨ job.isFinal = true ∧ version = job

/-- What holds of a job and its version between transactions. -/
structure Paired (r : IngestionRows) (x : VersionRows) : Prop where
  /-- they belong to one organization -/
  organization : x.version.organizationId = r.job.organizationId
  /-- their statuses agree -/
  status : InStep r.job.status x.version.ingestionStatus
  /-- content is there only when both have ended -/
  contents : x.contents ≠ [] → r.job.status.isFinal = true

/-- What holds of the contents between transactions. -/
structure IngestionInv (d : IngestionDb) : Prop where
  /-- every job has its version -/
  paired : ∀ j r, d.jobs j = some r → ∃ x, d.versions r.job.documentVersionId = some x ∧ Paired r x
  /-- a version has one job -/
  injective : ∀ i j r r', d.jobs i = some r → d.jobs j = some r' →
    r.job.documentVersionId = r'.job.documentVersionId → i = j
  /-- a scan finds every job -/
  listed : ∀ j, j ∈ d.jobIds ↔ (d.jobs j).isSome
  /-- and finds it once -/
  nodup : d.jobIds.Nodup

/-- The call claims under the token. -/
def IngestionCall.token : IngestionCall → Option Uuid
  | .finalizeUpload _ _ _ _ => none
  | .claimAndProcessEnvelope _ _ claimToken => some claimToken
  | .poll _ claimToken => some claimToken

/-- The job is the same one: its organization, its version and its bound on
attempts never change. -/
structure SameJob (job job' : IngestionJob) : Prop where
  /-- `organization_id` -/
  organization : job'.organizationId = job.organizationId
  /-- `document_version_id` -/
  version : job'.documentVersionId = job.documentVersionId
  maxAttempts : job'.maxAttempts = job.maxAttempts

theorem SameJob.refl (job : IngestionJob) : SameJob job job := ⟨rfl, rfl, rfl⟩

theorem SameJob.trans {a b c : IngestionJob} (h : SameJob a b) (h' : SameJob b c) : SameJob a c :=
  ⟨h'.organization.trans h.organization, h'.version.trans h.version,
    h'.maxAttempts.trans h.maxAttempts⟩

/-- What a worker that holds the claim `cl` does to the job, as it ends the attempt
`n`: the status and the number of the attempt. -/
def endAttempt (st : IngestionStatus) (n : ℕ) (job : IngestionJob) : IngestionJob :=
  { job with status := st, currentAttempt := n }

/-- What a committed transaction of a worker does to a job and its version. -/
inductive IngestionChange (c : IngestionCall) (m : Option IngestionMark) (now : ℕ) (j : Uuid)
    (r r' : IngestionRows) (x x' : VersionRows) : Prop where
  /-- the job is claimed -/
  | claimed (w : String) (token : Uuid) (t : ℕ) (hc : c.token = some token)
      (hm : m = some (.claiming j)) (ht : t ≤ now) (hclaimable : claimable t r.job = true)
      (hr' : r' = { r with job := handOut w token t r.job }) (hx' : x' = x)
  /-- the attempt ends with what the parser found -/
  | parsed (cl : ClaimedJob) (n : ℕ) (st : IngestionStatus) (hm : m = some (.parsing cl n))
      (hc : c.token = some cl.claimToken) (hj : cl.jobId = j) (howned : owned cl r.job = true)
      (hstatus : r.job.status = .queued ∨ r.job.status = .parsing)
      (hn : n = r.job.currentAttempt + 1) (hst : st.isFinal = true)
      (hjob : r'.job = endAttempt st n r.job)
      (hversion : x'.version = { x.version with
        ingestionStatus := st, extractionStatus := x'.version.extractionStatus })
  /-- the attempt ends with a failure: the job is queued again if attempts are left -/
  | failed (cl : ClaimedJob) (n : ℕ) (st : IngestionStatus) (hm : m = some (.parsing cl n))
      (hc : c.token = some cl.claimToken) (hj : cl.jobId = j) (howned : owned cl r.job = true)
      (hstatus : r.job.status = .queued ∨ r.job.status = .parsing ∨
        r.job.status = .failed ∧ st = .failed)
      (hst : st = if n < r.job.maxAttempts then .queued else .failed)
      (hjob : r'.job = endAttempt st n r.job)
      (hversion : x'.version = { x.version with
        ingestionStatus := st, extractionStatus := x'.version.extractionStatus })
      (hcontents : x'.contents = x.contents)

/-- What a committed transaction does. -/
inductive IngestionStep (c : IngestionCall) (m : Option IngestionMark) (d d' : IngestionDb) :
    Prop where
  /-- nothing -/
  | same (h : d' = d)
  /-- an upload creates a job and its version -/
  | created (j v : Uuid) (job : IngestionJob) (version : IngestedVersion) (hc : c.token = none)
      (hj : d.jobs j = none) (hv : d.versions v = none) (hjob : job.documentVersionId = v)
      (horg : version.organizationId = job.organizationId) (hstatus : job.status = .queued)
      (hattempt : job.currentAttempt = 0) (hmax : job.maxAttempts = 3)
      (htoken : job.claimToken = none) (hversion : version.ingestionStatus = .queued)
      (hjobs : d'.jobs = Function.update d.jobs j (some { job }))
      (hversions : d'.versions = Function.update d.versions v (some { version }))
      (hids : d'.jobIds = d.jobIds ++ [j]) (hnow : d'.now = d.now)
  /-- a worker claims a job or ends an attempt -/
  | changed (j : Uuid) (r r' : IngestionRows) (x x' : VersionRows) (hr : d.jobs j = some r)
      (hx : d.versions r.job.documentVersionId = some x)
      (hchange : IngestionChange c m d.now j r r' x x')
      (hjobs : d'.jobs = Function.update d.jobs j (some r'))
      (hversions : d'.versions = Function.update d.versions r.job.documentVersionId (some x'))
      (hids : d'.jobIds = d.jobIds) (hnow : d'.now = d.now)

section Changes

variable {c : IngestionCall} {m : Option IngestionMark} {now : ℕ} {j : Uuid}
  {r r' : IngestionRows} {x x' : VersionRows} {d d' : IngestionDb}

/-- A change leaves the identity of the job alone. -/
theorem IngestionChange.sameJob (h : IngestionChange c m now j r r' x x') :
    SameJob r.job r'.job := by
  cases h with
  | claimed w token t _ _ _ _ hr' =>
    subst hr'
    exact ⟨rfl, rfl, rfl⟩
  | parsed cl n st _ _ _ _ _ _ _ hjob =>
    rw [hjob]
    exact ⟨rfl, rfl, rfl⟩
  | failed cl n st _ _ _ _ _ _ hjob =>
    rw [hjob]
    exact ⟨rfl, rfl, rfl⟩

theorem InStep.of_final {st : IngestionStatus} (h : st.isFinal = true) : InStep st st :=
  .inr ⟨h, rfl⟩

/-- **A change keeps job and version in step**, and content comes with the end of
both. -/
theorem IngestionChange.paired (h : IngestionChange c m now j r r' x x') (hp : Paired r x) :
    Paired r' x' := by
  cases h with
  | claimed w token t _ _ _ hclaimable hr' hx' =>
    subst hr' hx'
    have hlive : r.job.status = .queued ∨ r.job.status = .parsing := by
      simp only [claimable, stale, Bool.or_eq_true, Bool.and_eq_true, beq_iff_eq] at hclaimable
      exact hclaimable.imp_right fun h => h.1.1
    refine ⟨hp.organization, ?_, fun hc => ?_⟩
    · rcases hp.status with ⟨-, hv⟩ | ⟨hfinal, -⟩
      · exact .inl ⟨.inr rfl, hv⟩
      · rcases hlive with hlive | hlive <;> rw [hlive] at hfinal <;> cases hfinal
    · have hfinal := hp.contents hc
      rcases hlive with hlive | hlive <;> rw [hlive] at hfinal <;> cases hfinal
  | parsed cl n st _ _ _ _ _ _ hst hjob hversion =>
    refine ⟨?_, ?_, fun _ => ?_⟩
    · rw [hversion, hjob]
      exact hp.organization
    · rw [hversion, hjob]
      exact .of_final hst
    · rw [hjob]
      exact hst
  | failed cl n st _ _ _ _ hstatus hst hjob hversion hcontents =>
    have hst' : st = .queued ∨ st = .failed := by
      rw [hst]
      split
      · exact .inl rfl
      · exact .inr rfl
    refine ⟨?_, ?_, fun hc => ?_⟩
    · rw [hversion, hjob]
      exact hp.organization
    · rw [hversion, hjob]
      rcases hst' with rfl | rfl
      · exact .inl ⟨.inl rfl, rfl⟩
      · exact .of_final rfl
    · rw [hcontents] at hc
      have hfinal := hp.contents hc
      rcases hstatus with h | h | ⟨-, h⟩
      · rw [h] at hfinal
        cases hfinal
      · rw [h] at hfinal
        cases hfinal
      · rw [hjob, h]
        rfl

/-- A version that was there stays the version of its job. -/
theorem IngestionInv.version_ne (h : IngestionInv d) {i : Uuid} {q : IngestionRows}
    (hij : i ≠ j) (hi : d.jobs i = some q) (hj : d.jobs j = some r) :
    q.job.documentVersionId ≠ r.job.documentVersionId :=
  fun heq => hij (h.injective i j q r hi hj heq)

/-- **A step keeps the invariant.** -/
theorem IngestionStep.inv (hs : IngestionStep c m d d') (h : IngestionInv d) :
    IngestionInv d' := by
  cases hs with
  | same hd =>
    rw [hd]
    exact h
  | created j v job version _ hj hv hjob horg hstatus _ _ _ hversion hjobs hversions hids _ =>
    -- the versions of the jobs that were there are not the new one
    have hne : ∀ i q, d.jobs i = some q → q.job.documentVersionId ≠ v := by
      intro i q hi heq
      obtain ⟨x, hx, -⟩ := h.paired i q hi
      rw [heq, hv] at hx
      cases hx
    have hnew : j ∉ d.jobIds := fun hmem => by
      have := (h.listed j).mp hmem
      rw [hj] at this
      cases this
    refine ⟨fun i q hi => ?_, fun i i' q q' hi hi' heq => ?_, fun i => ?_, ?_⟩
    · rw [hjobs] at hi
      rw [hversions]
      by_cases hij : i = j
      · subst hij
        rw [Function.update_self] at hi
        obtain rfl := Option.some.inj hi
        refine ⟨{ version }, by rw [hjob, Function.update_self], horg, ?_, fun hc => absurd rfl hc⟩
        rw [hstatus, hversion]
        exact .inl ⟨.inl rfl, rfl⟩
      · rw [Function.update_of_ne hij] at hi
        obtain ⟨x, hx, hp⟩ := h.paired i q hi
        exact ⟨x, by rw [Function.update_of_ne (hne i q hi), hx], hp⟩
    · rw [hjobs] at hi hi'
      by_cases hij : i = j <;> by_cases hij' : i' = j
      · rw [hij, hij']
      · subst hij
        rw [Function.update_self] at hi
        rw [Function.update_of_ne hij'] at hi'
        obtain rfl := Option.some.inj hi
        exact absurd (heq.symm.trans hjob) (hne i' q' hi')
      · subst hij'
        rw [Function.update_self] at hi'
        rw [Function.update_of_ne hij] at hi
        obtain rfl := Option.some.inj hi'
        exact absurd (heq.trans hjob) (hne i q hi)
      · rw [Function.update_of_ne hij] at hi
        rw [Function.update_of_ne hij'] at hi'
        exact h.injective i i' q q' hi hi' heq
    · rw [hids, hjobs, List.mem_append, List.mem_singleton]
      by_cases hij : i = j
      · simp [hij]
      · rw [Function.update_of_ne hij, or_iff_left hij]
        exact h.listed i
    · rw [hids]
      exact List.nodup_append.mpr ⟨h.nodup, by simp, fun a ha b hb heq => by
        rw [List.mem_singleton] at hb
        exact hnew (hb ▸ heq ▸ ha)⟩
  | changed j r r' x x' hr hx hchange hjobs hversions hids _ =>
    have hsame := hchange.sameJob
    refine ⟨fun i q hi => ?_, fun i i' q q' hi hi' heq => ?_, fun i => ?_, ?_⟩
    · rw [hjobs] at hi
      rw [hversions]
      by_cases hij : i = j
      · subst hij
        rw [Function.update_self] at hi
        obtain rfl := Option.some.inj hi
        obtain ⟨y, hy, hp⟩ := h.paired i r hr
        obtain rfl := Option.some.inj (hx.symm.trans hy)
        exact ⟨x', by rw [hsame.version, Function.update_self], hchange.paired hp⟩
      · rw [Function.update_of_ne hij] at hi
        obtain ⟨y, hy, hp⟩ := h.paired i q hi
        exact ⟨y, by rw [Function.update_of_ne (h.version_ne hij hi hr), hy], hp⟩
    · -- each job has the version it had
      have hold : ∀ k u, d'.jobs k = some u → ∃ u₀, d.jobs k = some u₀ ∧
          u₀.job.documentVersionId = u.job.documentVersionId := by
        intro k u hk
        rw [hjobs] at hk
        by_cases hkj : k = j
        · subst hkj
          rw [Function.update_self] at hk
          obtain rfl := Option.some.inj hk
          exact ⟨r, hr, hsame.version.symm⟩
        · rw [Function.update_of_ne hkj] at hk
          exact ⟨u, hk, rfl⟩
      obtain ⟨u, hu, hv⟩ := hold i q hi
      obtain ⟨u', hu', hv'⟩ := hold i' q' hi'
      exact h.injective i i' u u' hu hu' (by rw [hv, hv', heq])
    · rw [hids, hjobs]
      by_cases hij : i = j
      · subst hij
        rw [Function.update_self, h.listed i, hr]
        simp
      · rw [Function.update_of_ne hij]
        exact h.listed i
    · rw [hids]
      exact h.nodup

end Changes

/-- Jobs stay, and time goes on. -/
structure IngestionEvolves (d d' : IngestionDb) : Prop where
  /-- a job that was there is the same job -/
  jobs : ∀ j r, d.jobs j = some r → ∃ r', d'.jobs j = some r' ∧ SameJob r.job r'.job
  /-- the clock does not go back -/
  now : d.now ≤ d'.now

theorem IngestionStep.evolves {c : IngestionCall} {m : Option IngestionMark} {d d' : IngestionDb}
    (hs : IngestionStep c m d d') : IngestionEvolves d d' := by
  cases hs with
  | same hd =>
    rw [hd]
    exact ⟨fun j r hr => ⟨r, hr, .refl _⟩, le_rfl⟩
  | created j v job version _ hj _ _ _ _ _ _ _ _ hjobs _ _ hnow =>
    refine ⟨fun i r hr => ⟨r, ?_, .refl _⟩, hnow.ge⟩
    rw [hjobs, Function.update_of_ne (fun hij => by rw [hij, hj] at hr; cases hr), hr]
  | changed j r r' x x' hr hx hchange hjobs _ _ hnow =>
    refine ⟨fun i q hi => ?_, hnow.ge⟩
    rw [hjobs]
    by_cases hij : i = j
    · subst hij
      obtain rfl := Option.some.inj (hr.symm.trans hi)
      exact ⟨r', Function.update_self .., hchange.sameJob⟩
    · exact ⟨q, by rw [Function.update_of_ne hij, hi], .refl _⟩

/-- What is the case when a worker notes what it does: it holds the claim it
processes, and its attempt is the next one. -/
def IngestionNoted (c : IngestionCall) : IngestionMark → IngestionDb → Prop
  | .claiming _, _ => True
  | .processing cl, _ => c.token = some cl.claimToken
  | .parsing cl n, d => c.token = some cl.claimToken ∧ ∃ r, d.jobs cl.jobId = some r ∧
    owned cl r.job = true ∧ n = r.job.currentAttempt + 1

/-- The lock on a job row protects the job and its version. -/
def ingestionDiscipline : Discipline ingestionModel where
  agree
    | .job j, d, d' => d'.jobs j = d.jobs j ∧ ∀ r, d.jobs j = some r →
      d'.versions r.job.documentVersionId = d.versions r.job.documentVersionId
    | .version _, _, _ => True
  agree_refl r _ := by
    cases r with
    | job j => exact ⟨rfl, fun _ _ => rfl⟩
    | version v => trivial
  agree_trans r _ _ _ h h' := by
    cases r with
    | job j =>
      exact ⟨h'.1.trans h.1, fun r hr => (h'.2 r (h.1.trans hr)).trans (h.2 r hr)⟩
    | version v => trivial
  inv := IngestionInv
  evolves := IngestionEvolves
  evolves_refl _ := ⟨fun _ r hr => ⟨r, hr, .refl _⟩, le_rfl⟩
  evolves_trans _ _ _ h h' := ⟨fun j r hr => by
    obtain ⟨r', hr', hsame⟩ := h.jobs j r hr
    obtain ⟨r'', hr'', hsame'⟩ := h'.jobs j r' hr'
    exact ⟨r'', hr'', hsame.trans hsame'⟩, h.now.trans h'.now⟩
  guar := IngestionStep
  guar_evolves _ _ _ _ h := h.evolves
  noted := IngestionNoted
  raised _ _ := True
  sound _ := False

end FinanceIntelligence
