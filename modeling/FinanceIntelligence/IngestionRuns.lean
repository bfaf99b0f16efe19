import FinanceIntelligence.IngestionSafe
import FinanceIntelligence.RunCounts

/-!
# Exactly-once ingestion

Every reachable state of the ingestion plane keeps each job in step with its
version. The content of a version appears in one transaction, the one that ends
both, and a worker commits only as long as the job is claimed under its token.

* `ingestion_exactlyOnce` — **four things at once**: the content appears once, each version has
  one job, the two are in step, and a claim that was replaced commits nothing.
-/

namespace FinanceIntelligence

open IngestionQueue IngestionWorker

/-- A state of the ingestion plane. -/
abbrev IngestionSys := Sys IngestionRow IngestionStmt IngestionAnswer IngestionMark IngestionDb
  IngestionExc IngestionCall

/-- A process of the ingestion plane. -/
abbrev IngestionProc := Proc IngestionRow IngestionStmt IngestionAnswer IngestionMark IngestionDb
  IngestionExc IngestionCall

/-- What can happen in the ingestion plane. -/
abbrev IngestionAct := Act IngestionAnswer IngestionCall ℕ

/-- The states of all runs from the empty database. -/
abbrev IngestionReachable (now : ℕ) : IngestionSys → Prop :=
  ingestionModel.Reachable (emptyIngestionDb now)

theorem emptyIngestionDb_inv (now : ℕ) : IngestionInv (emptyIngestionDb now) where
  paired _ _ h := nomatch h
  injective _ _ _ _ h := nomatch h
  listed _ := ⟨fun h => (nomatch h), fun h => (nomatch h)⟩
  nodup := List.nodup_nil

variable {now : ℕ} {s s' : IngestionSys} {a : IngestionAct}

theorem ingestion_safe (h : IngestionReachable now s) : ingestionDiscipline.Safe s :=
  ingestionDiscipline_sound.safe (emptyIngestionDb_inv now) h

/-- **Inversion of a step**: the tables stay as they are, or one process commits an
`IngestionStep`. -/
theorem ingestion_step (h : IngestionReachable now s) (hs : ingestionModel.step a s = some s') :
    s'.db.jobs = s.db.jobs ∧ s'.db.versions = s.db.versions ∨
      ∃ pr, Model.Commits a s pr ∧ IngestionStep pr.call pr.mark s.db s'.db := by
  rcases (ingestion_safe h).step_db hs with hdb | ⟨e, -, hdb⟩ | ⟨pr, hcommit, -, hguar⟩
  · exact .inl ⟨by rw [hdb], by rw [hdb]⟩
  · exact .inl ⟨by rw [hdb]; rfl, by rw [hdb]; rfl⟩
  · exact .inr ⟨pr, hcommit, hguar⟩

/-! ## The content of a version -/

/-- A version is as it was, or its job ends an attempt. -/
theorem IngestionStep.version_cases {c : IngestionCall} {m : Option IngestionMark}
    {d d' : IngestionDb} (hs : IngestionStep c m d d') {v : Uuid} {x : VersionRows}
    (hx : d.versions v = some x) :
    d'.versions v = some x ∨ ∃ j r r' x', d.jobs j = some r ∧ r.job.documentVersionId = v ∧
      d'.jobs j = some r' ∧ d'.versions v = some x' ∧ IngestionChange c m d.now j r r' x x' := by
  cases hs with
  | same h =>
    rw [h]
    exact .inl hx
  | created j v' job version _ _ hv _ _ _ _ _ _ _ _ hversions =>
    refine .inl ?_
    rw [hversions, Function.update_of_ne (fun h => by rw [h, hv] at hx; cases hx), hx]
  | changed j r r' x₀ x' hr hx₀ hchange hjobs hversions =>
    by_cases hv : v = r.job.documentVersionId
    · subst hv
      obtain rfl := Option.some.inj (hx₀.symm.trans hx)
      exact .inr ⟨j, r, r', x', hr, rfl, by rw [hjobs, Function.update_self],
        by rw [hversions, Function.update_self], hchange⟩
    · rw [hversions, Function.update_of_ne hv]
      exact .inl hx

/-- The transaction ends the job and its version in one status and leaves the first
content of the version. -/
structure EndsWithContent (r r' : IngestionRows) (x x' : VersionRows) : Prop where
  /-- the job was not over -/
  live : r.job.status = .queued ∨ r.job.status = .parsing
  /-- the version was not over -/
  waiting : x.version.ingestionStatus = .queued
  /-- there was no content -/
  empty : x.contents = []
  /-- the job is over -/
  final : r'.job.status.isFinal = true
  /-- and so is the version -/
  same : x'.version.ingestionStatus = r'.job.status

/-- **Content comes with the end.** -/
theorem IngestionChange.endsWithContent {c : IngestionCall} {m : Option IngestionMark} {t : ℕ}
    {j : Uuid} {r r' : IngestionRows} {x x' : VersionRows}
    (h : IngestionChange c m t j r r' x x') (hp : Paired r x) (hne : x'.contents ≠ x.contents) :
    EndsWithContent r r' x x' := by
  cases h with
  | claimed _ _ _ _ _ _ _ _ hx' => exact absurd (by rw [hx']) hne
  | failed _ _ _ _ _ _ _ _ _ _ _ hcontents => exact absurd hcontents hne
  | parsed cl n st _ _ _ _ hstatus _ hst hjob hversion =>
    have hlive : r.job.status.isFinal = false := by
      rcases hstatus with h | h <;> rw [h] <;> rfl
    refine ⟨hstatus, ?_, ?_, by rw [hjob]; exact hst, by rw [hversion, hjob]; rfl⟩
    · rcases hp.status with ⟨-, hv⟩ | ⟨hfinal, -⟩
      · exact hv
      · rw [hlive] at hfinal
        cases hfinal
    · by_contra hc
      have hfinal := hp.contents hc
      rw [hlive] at hfinal
      cases hfinal

/-- The content of a version. -/
def contentsOf (v : Uuid) (d : IngestionDb) : List ContentRow :=
  ((d.versions v).map (·.contents)).getD []

/-- The step changes the content of the version. -/
def CommitsContent (v : Uuid) (_ : IngestionAct) (s s' : IngestionSys) : Prop :=
  contentsOf v s'.db ≠ contentsOf v s.db

/-- A change of the content is a commit that ends the job and the version. -/
theorem commitsContent_ends (h : IngestionReachable now s)
    (hs : ingestionModel.step a s = some s') {v : Uuid} (hc : CommitsContent v a s s') :
    ∃ pr j r r' x x', Model.Commits a s pr ∧ s.db.jobs j = some r ∧
      r.job.documentVersionId = v ∧ s'.db.jobs j = some r' ∧ s.db.versions v = some x ∧
      s'.db.versions v = some x' ∧ EndsWithContent r r' x x' := by
  rcases ingestion_step h hs with ⟨-, hsame⟩ | ⟨pr, hcommit, hstep⟩
  · exact absurd (by rw [contentsOf, contentsOf, hsame]) hc
  · cases hx : s.db.versions v with
    | none =>
      -- a version that is new has no content
      refine absurd ?_ hc
      have hempty : contentsOf v s.db = [] := by rw [contentsOf, hx]; rfl
      rw [hempty]
      cases hstep with
      | same hd => rw [hd, hempty]
      | created j v' job version _ _ _ _ _ _ _ _ _ _ _ hversions =>
        rw [contentsOf, hversions]
        by_cases hv : v = v'
        · rw [hv, Function.update_self]
          rfl
        · rw [Function.update_of_ne hv, hx]
          rfl
      | changed j r r' x x' hr hx' _ _ hversions =>
        have hv : v ≠ r.job.documentVersionId := fun hv => by rw [← hv, hx] at hx'; cases hx'
        rw [contentsOf, hversions, Function.update_of_ne hv, hx]
        rfl
    | some x =>
      rcases hstep.version_cases hx with hx' | ⟨j, r, r', x', hr, hv, hr', hx', hchange⟩
      · exact absurd (by rw [contentsOf, contentsOf, hx, hx']) hc
      · obtain ⟨y, hy, hp⟩ := (ingestion_safe h).inv.paired j r hr
        obtain rfl := Option.some.inj (hx.symm.trans (hv ▸ hy))
        refine ⟨pr, j, r, r', x, x', hcommit, hr, hv, hr', rfl, hx', hchange.endsWithContent hp ?_⟩
        intro hsame
        exact hc (by rw [contentsOf, contentsOf, hx, hx', Option.map_some, Option.map_some, hsame])

/-- The version is over. -/
def isOver (v : Uuid) (s : IngestionSys) : Bool :=
  (s.db.versions v).any fun x => x.version.ingestionStatus.isFinal

/-- A version that is over stays over. -/
theorem IngestionChange.isFinal {c : IngestionCall} {m : Option IngestionMark} {t : ℕ}
    {j : Uuid} {r r' : IngestionRows} {x x' : VersionRows}
    (h : IngestionChange c m t j r r' x x') (hp : Paired r x)
    (hfinal : x.version.ingestionStatus.isFinal = true) :
    x'.version.ingestionStatus.isFinal = true := by
  have hjob : r.job.status = x.version.ingestionStatus := by
    rcases hp.status with ⟨-, hv⟩ | ⟨-, hv⟩
    · rw [hv] at hfinal
      cases hfinal
    · exact hv.symm
  cases h with
  | claimed _ _ _ _ _ _ _ _ hx' =>
    rw [hx']
    exact hfinal
  | parsed _ _ _ _ _ _ _ _ _ hst _ hversion =>
    rw [hversion]
    exact hst
  | failed _ _ _ _ _ _ _ hstatus _ _ hversion =>
    rw [hversion]
    rcases hstatus with hs | hs | ⟨-, hst⟩
    · rw [← hjob, hs] at hfinal
      cases hfinal
    · rw [← hjob, hs] at hfinal
      cases hfinal
    · rw [hst]
      rfl

theorem isOver_step (h : IngestionReachable now s) (hs : ingestionModel.step a s = some s')
    {v : Uuid} (hover : isOver v s = true) : isOver v s' = true := by
  obtain ⟨x, hx, hfinal⟩ := (Option.any_eq_true _ _).mp hover
  rw [isOver, Option.any_eq_true]
  rcases ingestion_step h hs with ⟨-, hsame⟩ | ⟨pr, -, hstep⟩
  · exact ⟨x, by rw [hsame, hx], hfinal⟩
  · rcases hstep.version_cases hx with hx' | ⟨j, r, r', x', hr, hv, -, hx', hchange⟩
    · exact ⟨x, hx', hfinal⟩
    · obtain ⟨y, hy, hp⟩ := (ingestion_safe h).inv.paired j r hr
      obtain rfl := Option.some.inj (hx.symm.trans (hv ▸ hy))
      exact ⟨x', hx', hchange.isFinal hp hfinal⟩

/-- **The content of a version is committed at most once.** -/
theorem counted_commitsContent {v : Uuid} {n : ℕ}
    (h : ingestionModel.Counted (CommitsContent v) (emptyIngestionDb now) n s) : n ≤ 1 := by
  refine (h.le_potential (f := fun s => if isOver v s then 1 else 0) ?_).trans (by split <;> simp)
  intro s s' a hreach _ hs
  have hkeep := isOver_step (v := v) hreach hs
  refine ⟨?_, fun hc => ?_⟩
  · split
    · rename_i hover
      rw [if_pos (hkeep hover)]
    · exact Nat.zero_le _
  · obtain ⟨_, _, r, r', x, x', -, -, -, -, hx, hx', hends⟩ := commitsContent_ends hreach hs hc
    have hbefore : isOver v s = false := by
      rw [isOver, hx, Option.any_some, hends.waiting]
      rfl
    have hafter : isOver v s' = true := by
      rw [isOver, hx', Option.any_some, hends.same]
      exact hends.final
    simp [hbefore, hafter]

/-! ## Job and version -/

/-- Every version has its job. -/
theorem exists_job (h : IngestionReachable now s) {v : Uuid} {x : VersionRows}
    (hx : s.db.versions v = some x) :
    ∃ j r, s.db.jobs j = some r ∧ r.job.documentVersionId = v := by
  refine h.invariant (P := fun s => ∀ v x, s.db.versions v = some x → ∃ j r,
    s.db.jobs j = some r ∧ r.job.documentVersionId = v) (fun _ _ hx => by cases hx) ?_ v x hx
  intro s s' a hreach ih _ hs v x hx
  rcases ingestion_step hreach hs with ⟨hjobs, hversions⟩ | ⟨pr, -, hstep⟩
  · rw [hversions] at hx
    rw [hjobs]
    exact ih v x hx
  · cases hstep with
    | same hd =>
      rw [hd] at hx ⊢
      exact ih v x hx
    | created j v' job version _ hj _ hjob _ _ _ _ _ _ hjobs hversions =>
      rw [hversions] at hx
      rw [hjobs]
      by_cases hv : v = v'
      · exact ⟨j, { job }, Function.update_self .., hjob.trans hv.symm⟩
      · rw [Function.update_of_ne hv] at hx
        obtain ⟨i, r, hr, hrv⟩ := ih v x hx
        have hij : i ≠ j := fun hij => by rw [hij, hj] at hr; cases hr
        exact ⟨i, r, by rw [Function.update_of_ne hij, hr], hrv⟩
    | changed j r r' x₀ x' hr hx₀ hchange hjobs hversions =>
      have hx₁ : ∃ y, s.db.versions v = some y := by
        rw [hversions] at hx
        by_cases hv : v = r.job.documentVersionId
        · exact ⟨x₀, hv ▸ hx₀⟩
        · rw [Function.update_of_ne hv] at hx
          exact ⟨x, hx⟩
      obtain ⟨y, hy⟩ := hx₁
      obtain ⟨i, q, hq, hqv⟩ := ih v y hy
      rw [hjobs]
      by_cases hij : i = j
      · subst hij
        obtain rfl := Option.some.inj (hr.symm.trans hq)
        exact ⟨i, r', Function.update_self .., hchange.sameJob.version.trans hqv⟩
      · exact ⟨i, q, by rw [Function.update_of_ne hij, hq], hqv⟩

/-! ## Claims -/

/-- The process works on the claim. -/
def Processes (pr : IngestionProc) (cl : ClaimedJob) : Prop :=
  pr.mark = some (.processing cl) ∨ ∃ n, pr.mark = some (.parsing cl n)

/-- A process that works on a claim made it. -/
theorem Processes.token (h : IngestionReachable now s) {p : ℕ} {pr : IngestionProc}
    {cl : ClaimedJob} (hp : s.proc p = some pr) (hcl : Processes pr cl) :
    pr.call.token = some cl.claimToken := by
  refine h.invariant (P := fun s => ∀ p pr cl, s.proc p = some pr → Processes pr cl →
    pr.call.token = some cl.claimToken) (fun _ _ _ hp => nomatch hp) ?_ p pr cl hp hcl
  intro s s' a hreach ih _ hs p pr' cl hp' hcl
  rcases (ingestion_safe hreach).step_proc hs hp' with hp | ⟨c, -, rfl⟩ | ⟨i, pr, -, hp, hadv⟩
  · exact ih p pr' cl hp hcl
  · rcases hcl with hcl | ⟨n, hcl⟩ <;> cases hcl
  · rw [hadv.call]
    have hold : pr'.mark = pr.mark → pr.call.token = some cl.claimToken := fun hm =>
      ih p pr cl hp (by rwa [Processes, ← hm])
    rcases hadv.effect with ⟨-, hm | ⟨m, hm, hnoted⟩⟩ | ⟨-, -, hm, -⟩
    · exact hold hm
    · rcases hcl with hcl | ⟨n, hcl⟩
      · obtain rfl := Option.some.inj (hm.symm.trans hcl)
        exact hnoted
      · obtain rfl := Option.some.inj (hm.symm.trans hcl)
        exact hnoted.1
    · exact hold hm

/-- **Fencing**: a worker whose claim was replaced commits nothing. -/
theorem Processes.commits_nothing (h : IngestionReachable now s)
    (hs : ingestionModel.step a s = some s') {pr : IngestionProc} {cl : ClaimedJob}
    (hcommit : Model.Commits a s pr) (hcl : Processes pr cl)
    (hlost : ∀ r, s.db.jobs cl.jobId = some r → owned cl r.job = false) : s'.db = s.db := by
  obtain ⟨p, i, rfl, hp, -⟩ := hcommit
  have htoken := hcl.token h hp
  rcases (ingestion_safe h).step_db hs with hdb | ⟨e, he, -⟩ | ⟨pr', ⟨p', i', ha, hp', -⟩, -, hguar⟩
  · exact hdb
  · cases he
  · cases ha
    obtain rfl := Option.some.inj (hp.symm.trans hp')
    -- what it commits it commits under its claim
    have hmark : ∀ cl' n, pr.mark = some (.parsing cl' n) → cl' = cl := by
      intro cl' n hm
      rcases hcl with hcl | ⟨n', hcl⟩
      · rw [hm] at hcl
        cases hcl
      · rw [hm] at hcl
        cases hcl
        rfl
    have howned : ∀ cl' n j r, pr.mark = some (.parsing cl' n) → cl'.jobId = j →
        s.db.jobs j = some r → owned cl' r.job = true → False := by
      intro cl' n j r hm hj hr ho
      obtain rfl := hmark cl' n hm
      subst hj
      rw [hlost r hr] at ho
      cases ho
    cases hguar with
    | same hd => exact hd
    | created j v job version hc =>
      rw [htoken] at hc
      cases hc
    | changed j r r' x x' hr hx hchange =>
      cases hchange with
      | claimed w token t _ hm =>
        rcases hcl with hcl | ⟨n, hcl⟩ <;> rw [hm] at hcl <;> cases hcl
      | parsed cl' n st hm _ hj ho => exact (howned cl' n j r hm hj hr ho).elim
      | failed cl' n st hm _ hj ho => exact (howned cl' n j r hm hj hr ho).elim

/-- **Ingestion is exactly-once**. In every run of any number of workers, with
crashes, retries and stale claims: the content of a version is committed at most
once, by the transaction that ends the version and its job in one status; each
version has one job, and they are in step; a worker whose claim was replaced
commits nothing. -/
theorem ingestion_exactlyOnce (now : ℕ) :
    (∀ v n s, ingestionModel.Counted (CommitsContent v) (emptyIngestionDb now) n s → n ≤ 1) ∧
      (∀ s s' a v, IngestionReachable now s → ingestionModel.step a s = some s' →
        CommitsContent v a s s' → ∃ pr j r r' x x', Model.Commits a s pr ∧
          s.db.jobs j = some r ∧ r.job.documentVersionId = v ∧ s'.db.jobs j = some r' ∧
          s.db.versions v = some x ∧ s'.db.versions v = some x' ∧ EndsWithContent r r' x x') ∧
      (∀ s v x, IngestionReachable now s → s.db.versions v = some x → ∃ j r,
        s.db.jobs j = some r ∧ r.job.documentVersionId = v ∧
          InStep r.job.status x.version.ingestionStatus ∧
          ∀ i q, s.db.jobs i = some q → q.job.documentVersionId = v → i = j) ∧
      ∀ s s' a pr cl, IngestionReachable now s → ingestionModel.step a s = some s' →
        Model.Commits a s pr → Processes pr cl →
          (∀ r, s.db.jobs cl.jobId = some r → owned cl r.job = false) → s'.db = s.db := by
  refine ⟨fun v n s h => counted_commitsContent h,
    fun s s' a v h hs hc => commitsContent_ends h hs hc, fun s v x h hx => ?_,
    fun s s' a pr cl h hs hcommit hcl hlost => hcl.commits_nothing h hs hcommit hlost⟩
  obtain ⟨j, r, hr, hv⟩ := exists_job h hx
  have hinv := (ingestion_safe h).inv
  obtain ⟨y, hy, hp⟩ := hinv.paired j r hr
  obtain rfl := Option.some.inj (hx.symm.trans (hv ▸ hy))
  exact ⟨j, r, hr, hv, hp.status, fun i q hq hqv => hinv.injective i j q r hq hr (hqv.trans hv.symm)⟩

end FinanceIntelligence
