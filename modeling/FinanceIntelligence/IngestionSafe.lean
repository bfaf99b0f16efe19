import FinanceIntelligence.IngestionDiscipline

/-!
# The ingestion calls keep the discipline

`Working j m r₀ r x₀ x σ`: the process has locked the job `j`, found the rows
`r₀` and `x₀` of it and of its version, and its statements turn them into `r`
and `x`. Each instruction has one rule about it. `Settled` is what is left of
that after a rollback, and all that a raised exception is told.
-/

namespace FinanceIntelligence

open IngestionProg IngestionQueue IngestionWorker StateMachineService FactCandidateService

/-- What one ingestion process knows. -/
abbrev IngestionCfg := Cfg IngestionRow IngestionStmt IngestionMark IngestionDb

/-- The process has locked the job `j` and changed it and its version. -/
structure Working (j : Uuid) (m : Option IngestionMark) (r₀ r : IngestionRows)
    (x₀ x : VersionRows) (σ : IngestionCfg) : Prop where
  /-- the lock on the job -/
  held : IngestionRow.job j ∈ σ.held
  /-- the last note -/
  mark : σ.mark = m
  /-- the job it found -/
  row : σ.db.jobs j = some r₀
  /-- the version it found -/
  version : σ.db.versions r₀.job.documentVersionId = some x₀
  /-- they belong together -/
  paired : Paired r₀ x₀
  /-- its statements commit, with these changes -/
  replay : ∀ d, d.jobs j = some r₀ → d.versions r₀.job.documentVersionId = some x₀ →
    ingestionSchema.replay σ.pending d =
      .ok ((d.setJob j r).setVersion r₀.job.documentVersionId x)

/-- Between transactions, the job of the claim is there. -/
structure Settled (cl : ClaimedJob) (m : Option IngestionMark) (σ : IngestionCfg) : Prop where
  /-- the last note -/
  mark : σ.mark = m
  /-- the job belongs to the organization of the claim -/
  job : ∃ r, σ.db.jobs cl.jobId = some r ∧ r.job.organizationId = cl.organizationId

section Working

variable {j : Uuid} {m : Option IngestionMark} {r₀ r : IngestionRows} {x₀ x : VersionRows}
  {σ : IngestionCfg} {d : IngestionDb} {cl : ClaimedJob}

/-- Other processes may go on, and more rows may be locked. -/
theorem Working.rely (h : Working j m r₀ r x₀ x σ) (hd : ingestionDiscipline.rely σ d)
    (held : Set IngestionRow) (hheld : σ.held ⊆ held) :
    Working j m r₀ r x₀ x { σ with held := held, db := d } where
  held := hheld h.held
  mark := h.mark
  row := (hd.agree _ h.held).1.trans h.row
  version := ((hd.agree _ h.held).2 r₀ h.row).trans h.version
  paired := h.paired
  replay := h.replay

/-- What the transaction sees. -/
theorem Working.view (h : Working j m r₀ r x₀ x σ) :
    ingestionSchema.view σ.pending σ.db =
      (σ.db.setJob j r).setVersion r₀.job.documentVersionId x :=
  (ingestionSchema.replay_eq_ok (h.replay _ h.row h.version)).symm

/-- The job as the transaction sees it. -/
theorem Working.view_job (h : Working j m r₀ r x₀ x σ) :
    (ingestionSchema.view σ.pending σ.db).jobs j = some r := by
  rw [h.view]
  exact Function.update_self ..

/-- The version as the transaction sees it. -/
theorem Working.view_version (h : Working j m r₀ r x₀ x σ) :
    (ingestionSchema.view σ.pending σ.db).versions r₀.job.documentVersionId = some x := by
  rw [h.view]
  exact Function.update_self ..

theorem Working.settled (h : Working j m r₀ r x₀ x σ) (hj : cl.jobId = j)
    (horg : r₀.job.organizationId = cl.organizationId) : Settled cl m σ :=
  ⟨h.mark, r₀, hj ▸ h.row, horg⟩

/-- Nothing is changed when the lock is taken. -/
theorem Working.locked (held : Set IngestionRow) (hinv : IngestionInv d)
    (hr : d.jobs j = some r) (hheld : IngestionRow.job j ∈ held) :
    ∃ x, Working j m r r x x ⟨held, [], m, d⟩ := by
  obtain ⟨x, hx, hp⟩ := hinv.paired j r hr
  refine ⟨x, hheld, rfl, hr, hx, hp, fun d' hr' hx' => ?_⟩
  rw [IngestionDb.setJob_self hr', IngestionDb.setVersion_self hx']
  rfl

/-- One more statement that passes the constraints. -/
theorem Working.write (h : Working j m r₀ r x₀ x σ) {s : IngestionStmt} {r' : IngestionRows}
    {x' : VersionRows}
    (hs : ∀ d, d.jobs j = some r → d.versions r₀.job.documentVersionId = some x →
      ingestionSchema.replay [s] d = .ok ((d.setJob j r').setVersion r₀.job.documentVersionId x')) :
    Working j m r₀ r' x₀ x' { σ with pending := σ.pending ++ [s] } where
  held := h.held
  mark := h.mark
  row := h.row
  version := h.version
  paired := h.paired
  replay d hr hx := by
    rw [Schema.replay_append _ (h.replay d hr hx), hs _ (Function.update_self ..)
      (Function.update_self ..), IngestionDb.setVersion_setJob, IngestionDb.setJob_setJob,
      IngestionDb.setVersion_setVersion]

theorem Settled.rely (h : Settled cl m σ) (hd : ingestionDiscipline.rely σ d)
    (held : Set IngestionRow) (l : List IngestionStmt) : Settled cl m ⟨held, l, σ.mark, d⟩ := by
  obtain ⟨hm, r, hr, horg⟩ := h
  obtain ⟨r', hr', hsame⟩ := hd.evolves.jobs _ r hr
  exact ⟨hm, r', hr', hsame.organization.trans horg⟩

end Working

/-! ## The rules of the instructions -/

section Rules

variable {c : IngestionCall} {j : Uuid} {m : Option IngestionMark} {r₀ r : IngestionRows}
  {x₀ x : VersionRows} {σ : IngestionCfg} {α β : Type}

/-- A postcondition of an ingestion program. -/
abbrev IngestionPost (α : Type) := α → IngestionCfg → Prop

/-- An exception finds the job still locked. -/
def RaisesWorking (j : Uuid) (m : Option IngestionMark) (r₀ : IngestionRows) (x₀ : VersionRows)
    (E : IngestionPost IngestionExc) : Prop :=
  ∀ e σ r x, Working j m r₀ r x₀ x σ → E e σ

variable {E : IngestionPost IngestionExc}

theorem wp_ingestion_select {Q : IngestionPost IngestionDb} (h : Working j m r₀ r x₀ x σ)
    (hQ : ∀ d σ', d.jobs j = some r → d.versions r₀.job.documentVersionId = some x →
      Working j m r₀ r x₀ x σ' → Q d σ') : ingestionDiscipline.wp c select Q E σ := by
  intro d hd
  have h' := h.rely hd _ subset_rfl
  exact hQ _ _ h'.view_job h'.view_version h'

/-- A statement on the job: it commits with what it does to the rows; time may have
passed. -/
theorem wp_ingestion_onJob_evolves {s : IngestionStmt} {f : IngestionRows → IngestionRows}
    {Q : IngestionPost Unit} (h : Working j m r₀ r x₀ x σ) (hE : RaisesWorking j m r₀ x₀ E)
    (happly : ∀ d, s.apply d = d.mapJob j f)
    (hcheck : ∀ d d', d.jobs j = d'.jobs j → s.check d = s.check d')
    (hQ : ∀ σ', IngestionEvolves σ.db σ'.db → Working j m r₀ (f r) x₀ x σ' → Q () σ') :
    ingestionDiscipline.wp c (execute s) Q E σ := by
  intro d hd
  have h' := h.rely hd (σ.held ∪ {x | x ∈ s.target.toList}) Set.subset_union_left
  refine ⟨fun hc => hQ _ hd.evolves (h'.write fun d' hr hx => ?_), fun _ => ⟨id, hE _ _ r x h'⟩⟩
  have hc' : s.check d' = true := (hcheck d' _ (hr.trans h'.view_job.symm)).trans hc
  simp only [Schema.replay, ingestionSchema, hc', if_true, happly, IngestionDb.mapJob_eq hr]
  rw [IngestionDb.setVersion_self (d := d'.setJob j (f r)) hx]

/-- A statement on the job. -/
theorem wp_ingestion_onJob {s : IngestionStmt} {f : IngestionRows → IngestionRows}
    {Q : IngestionPost Unit} (h : Working j m r₀ r x₀ x σ) (hE : RaisesWorking j m r₀ x₀ E)
    (happly : ∀ d, s.apply d = d.mapJob j f)
    (hcheck : ∀ d d', d.jobs j = d'.jobs j → s.check d = s.check d')
    (hQ : ∀ σ', Working j m r₀ (f r) x₀ x σ' → Q () σ') :
    ingestionDiscipline.wp c (execute s) Q E σ :=
  wp_ingestion_onJob_evolves h hE happly hcheck fun σ' _ => hQ σ'

/-- A statement on the version: it commits with what it does to the rows. -/
theorem wp_ingestion_onVersion {s : IngestionStmt} {f : VersionRows → VersionRows}
    {k : Bool → IngestionProg α} {Q : IngestionPost α} (h : Working j m r₀ r x₀ x σ)
    (happly : ∀ d, s.apply d = d.mapVersion r₀.job.documentVersionId f)
    (hcheck : ∀ d d', d.versions r₀.job.documentVersionId = d'.versions r₀.job.documentVersionId →
      s.check d = s.check d')
    (htrue : ∀ σ', Working j m r₀ r x₀ (f x) σ' → ingestionDiscipline.wp c (k true) Q E σ')
    (hfalse : ∀ σ', Working j m r₀ r x₀ x σ' → ingestionDiscipline.wp c (k false) Q E σ') :
    ingestionDiscipline.wp c (Prog.write s k) Q E σ := by
  intro d hd
  have h' := h.rely hd (σ.held ∪ {x | x ∈ s.target.toList}) Set.subset_union_left
  refine ⟨fun hc => htrue _ (h'.write fun d' hr hx => ?_), fun _ => ⟨id, hfalse _ h'⟩⟩
  have hc' : s.check d' = true := (hcheck d' _ (hx.trans h'.view_version.symm)).trans hc
  simp only [Schema.replay, ingestionSchema, hc', if_true, happly, IngestionDb.mapVersion_eq hx]
  rw [IngestionDb.setJob_self hr]

/-- Something outside the model is called; an exception finds the job locked. -/
theorem wp_ingestion_call {f : IngestionAnswer → α} {Q : IngestionPost α}
    (h : Working j m r₀ r x₀ x σ) (hE : RaisesWorking j m r₀ x₀ E) (hQ : ∀ a, Q a σ) :
    ingestionDiscipline.wp c (call f) Q E σ := by
  intro i
  obtain ⟨_, _, _, failure, _, _⟩ := i
  cases failure with
  | none => exact hQ _
  | some err => exact hE _ _ r x h

theorem wp_ingestion_rollback {Q : IngestionPost Unit}
    (hQ : ∀ d, ingestionDiscipline.rely σ d → Q () ⟨∅, [], σ.mark, d⟩) :
    ingestionDiscipline.wp c rollback Q E σ := hQ

theorem wp_ingestion_note {m' : IngestionMark} {Q : IngestionPost Unit}
    (hQ : ∀ d, ingestionDiscipline.rely σ d →
      IngestionNoted c m' d ∧ Q () ⟨σ.held, σ.pending, some m', d⟩) :
    ingestionDiscipline.wp c (note m') Q E σ := hQ

/-- The job is locked if it qualifies and nobody has it. -/
theorem wp_ingestion_lockJobSkip {q : IngestionJob → Bool} {Q : IngestionPost (Option IngestionRows)}
    (hpending : σ.pending = [])
    (hnone : ∀ d, ingestionDiscipline.rely σ d → Q none ⟨σ.held, [], σ.mark, d⟩)
    (hsome : ∀ r x σ', q r.job = true → IngestionEvolves σ.db σ'.db →
      Working j σ.mark r r x x σ' → Q (some r) σ') :
    ingestionDiscipline.wp c (lockJobSkip j q) Q E σ := by
  intro d hd l hl _
  rw [hpending, Schema.view_nil] at hl
  beta_reduce at hl
  cases l with
  | nil =>
    have := hnone d hd
    rw [← hpending] at this
    simpa using this
  | cons a l =>
    by_cases hq : (d.jobs j).any (fun r => q r.job) = true
    · rw [if_pos hq] at hl
      obtain ⟨rfl, rfl⟩ : a = .job j ∧ l = [] := by
        have := List.sublist_singleton.mp hl
        simpa using this
      obtain ⟨r, hr, hqr⟩ := (Option.any_eq_true _ _).mp hq
      intro d' hd'
      have hr' : d'.jobs j = some r := (hd'.agree (.job j) (.inr (by simp))).1.trans hr
      obtain ⟨x, hw⟩ := Working.locked (m := σ.mark) (σ.held ∪ {r | r ∈ [.job j]}) hd'.inv hr'
        (.inr (by simp))
      have hview : (ingestionModel.schema.view σ.pending d').jobs j = some r := by
        rw [hpending]
        exact hr'
      change Q ((ingestionModel.schema.view σ.pending d').jobs j) _
      rw [hview]
      rw [← hpending] at hw
      exact hsome r x _ hqr (ingestionDiscipline.evolves_trans _ _ _ hd.evolves hd'.evolves) hw
    · rw [if_neg hq] at hl
      cases hl

/-- The job is locked, when nobody has it. -/
theorem wp_ingestion_lockJob {q : IngestionJob → Bool} {Q : IngestionPost (Option IngestionRows)}
    (hpending : σ.pending = [])
    (hnone : ∀ d, ingestionDiscipline.rely σ d → Q none ⟨σ.held, [], σ.mark, d⟩)
    (hsome : ∀ r x σ', IngestionEvolves σ.db σ'.db → Working j σ.mark r r x x σ' →
      Q (some r) σ') :
    ingestionDiscipline.wp c (lockJob j q) Q E σ := by
  intro d hd
  refine ⟨fun hq => ?_, fun _ => ?_⟩
  · rw [hpending] at hq
    obtain ⟨r, hr, -⟩ := (Option.any_eq_true _ _).mp hq
    intro d' hd'
    have hr' : d'.jobs j = some r := (hd'.agree (.job j) (Set.mem_insert _ _)).1.trans hr
    obtain ⟨x, hw⟩ := Working.locked (m := σ.mark) (insert (.job j) σ.held) hd'.inv hr'
      (Set.mem_insert _ _)
    have hview : (ingestionModel.schema.view σ.pending d').jobs j = some r := by
      rw [hpending]
      exact hr'
    change Q ((ingestionModel.schema.view σ.pending d').jobs j) _
    rw [hview]
    rw [← hpending] at hw
    exact hsome r x _ (ingestionDiscipline.evolves_trans _ _ _ hd.evolves hd'.evolves) hw
  · have := hnone d hd
    rw [← hpending] at this
    exact this

/-- `transition_job` of the locked job. -/
theorem wp_transitionJob {expected target : IngestionStatus} {org : Uuid}
    {Q : IngestionPost Unit} (h : Working j m r₀ r x₀ x σ) (hE : RaisesWorking j m r₀ x₀ E)
    (hQ : target ∈ r.job.status.jobTransitions → ∀ σ', Working j m r₀
      { r with job := { r.job with status := target } } x₀ x σ' → Q () σ') :
    ingestionDiscipline.wp c (transitionJob j expected target org) Q E σ := by
  simp only [transitionJob, lockJob, Prog.bind_eq, Prog.bind]
  intro d hd
  have h' := h.rely hd (insert (.job j) σ.held) (Set.subset_insert _ _)
  refine ⟨fun _ => ?_, fun _ => hE _ _ r x (h.rely hd _ subset_rfl)⟩
  intro d' hd'
  have h'' := h'.rely hd' _ subset_rfl
  have hview : (ingestionModel.schema.view σ.pending d').jobs j = some r := h''.view_job
  simp only [Prog.bind, hview]
  split
  · exact hE _ _ r x h''
  · rename_i hok
    simp only [Discipline.wp_bind]
    refine wp_ingestion_call h'' hE fun _ => ?_
    refine wp_ingestion_onJob h'' hE (fun _ => rfl) (fun _ _ _ => rfl) (hQ ?_)
    simp only [not_or, not_not] at hok
    exact hok.2

/-- `transition_version` of the version of the locked job. -/
theorem wp_transitionVersion {expected target : IngestionStatus} {org : Uuid}
    {Q : IngestionPost Unit} (h : Working j m r₀ r x₀ x σ) (hE : RaisesWorking j m r₀ x₀ E)
    (hQ : target ∈ x.version.ingestionStatus.versionTransitions → ∀ σ', Working j m r₀ r x₀
      { x with version := { x.version with ingestionStatus := target } } σ' → Q () σ') :
    ingestionDiscipline.wp c
      (transitionVersion r₀.job.documentVersionId expected target org) Q E σ := by
  simp only [transitionVersion, lockVersion, Prog.bind_eq, Prog.bind]
  intro d hd
  have h' := h.rely hd (insert (.version r₀.job.documentVersionId) σ.held) (Set.subset_insert _ _)
  refine ⟨fun _ => ?_, fun _ => hE _ _ r x (h.rely hd _ subset_rfl)⟩
  intro d' hd'
  have h'' := h'.rely hd' _ subset_rfl
  have hview : (ingestionModel.schema.view σ.pending d').versions r₀.job.documentVersionId =
      some x := h''.view_version
  simp only [Prog.bind, hview]
  split
  · exact hE _ _ r x h''
  · rename_i hok
    simp only [Discipline.wp_bind]
    refine wp_ingestion_call h'' hE fun _ => ?_
    refine wp_ingestion_onVersion h'' (fun _ => rfl) (fun _ _ _ => rfl) (fun σ' h => ?_)
      fun σ' h => hE _ _ r x h
    simp only [not_or, not_not] at hok
    exact hQ hok.2 σ' h

/-- The rows of other jobs stay when a job and its version change. -/
theorem agree_of_change {d d' : IngestionDb} {r' : IngestionRows} {x' : VersionRows}
    (hinv : IngestionInv d) (hr : d.jobs j = some r)
    (hjobs : d'.jobs = Function.update d.jobs j (some r'))
    (hversions : d'.versions = Function.update d.versions r.job.documentVersionId (some x'))
    {row : IngestionRow} (hrow : row ≠ .job j) : ingestionDiscipline.agree row d d' := by
  cases row with
  | version v => trivial
  | job i =>
    have hij : i ≠ j := fun h => hrow (by rw [h])
    refine ⟨by rw [hjobs, Function.update_of_ne hij], fun q hq => ?_⟩
    rw [hversions, Function.update_of_ne (hinv.version_ne hij hq hr)]

/-- The changes of a locked job are committed. -/
theorem wp_ingestion_commit {Q : IngestionPost Unit} (h : Working j m r₀ r x₀ x σ)
    (hchange : ∀ now, IngestionChange c m now j r₀ r x₀ x) (hQ : ∀ σ', Q () σ') :
    ingestionDiscipline.wp c commit Q E σ := by
  intro d hd
  have h' := h.rely hd _ subset_rfl
  have hreplay : ingestionModel.schema.replay σ.pending d = _ := h.replay d h'.row h'.version
  refine ⟨fun d' hd' => ?_, fun a ha => ?_⟩
  · obtain rfl := Except.ok.inj (hreplay.symm.trans hd')
    have hstep : IngestionStep c σ.mark d
        ((d.setJob j r).setVersion r₀.job.documentVersionId x) :=
      .changed j r₀ r x₀ x h'.row h'.version (h.mark ▸ hchange d.now) rfl rfl rfl rfl
    refine ⟨fun row hrow => ?_, hstep.inv hd.inv, hstep, hQ _⟩
    exact agree_of_change hd.inv h'.row rfl rfl fun heq => hrow (heq ▸ h.held)
  · rw [hreplay] at ha
    cases ha

end Rules

/-! ## Content -/

section Content

variable {c : IngestionCall} {j : Uuid} {m : Option IngestionMark} {r₀ r : IngestionRows}
  {x₀ : VersionRows} {E : IngestionPost IngestionExc} {α β : Type}

/-- The program adds content to the version of the locked job and does nothing
else. -/
def AddsContent (c : IngestionCall) (j : Uuid) (m : Option IngestionMark) (r₀ r : IngestionRows)
    (x₀ : VersionRows) (E : IngestionPost IngestionExc) (p : IngestionProg α) : Prop :=
  ∀ x σ, Working j m r₀ r x₀ x σ → ingestionDiscipline.wp c p
    (fun _ σ' => ∃ x', x'.version = x.version ∧ Working j m r₀ r x₀ x' σ') E σ

theorem AddsContent.ret (a : α) : AddsContent c j m r₀ r x₀ E (.ret a) :=
  fun x _ h => ⟨x, rfl, h⟩

theorem AddsContent.raise (hE : RaisesWorking j m r₀ x₀ E) (e : IngestionExc) :
    AddsContent c j m r₀ r x₀ E (.raise e : IngestionProg α) :=
  fun x _ h => hE e _ r x h

theorem AddsContent.bind {p : IngestionProg α} {f : α → IngestionProg β}
    (hp : AddsContent c j m r₀ r x₀ E p) (hf : ∀ a, AddsContent c j m r₀ r x₀ E (f a)) :
    AddsContent c j m r₀ r x₀ E (p.bind f) := by
  intro x σ h
  rw [Discipline.wp_bind]
  refine Discipline.wp_mono (fun a σ' h' => ?_) (fun _ _ h' => h') (hp x σ h)
  obtain ⟨x', hx', h'⟩ := h'
  refine Discipline.wp_mono (fun b σ'' h'' => ?_) (fun _ _ h'' => h'') (hf a x' σ' h')
  obtain ⟨x'', hx'', h''⟩ := h''
  exact ⟨x'', hx''.trans hx', h''⟩

theorem AddsContent.uuid4 : AddsContent c j m r₀ r x₀ E uuid4 := fun x _ h _ => ⟨x, rfl, h⟩

theorem AddsContent.call (hE : RaisesWorking j m r₀ x₀ E) (f : IngestionAnswer → α) :
    AddsContent c j m r₀ r x₀ E (call f) :=
  fun x _ h => wp_ingestion_call h hE fun _ => ⟨x, rfl, h⟩

theorem AddsContent.select : AddsContent c j m r₀ r x₀ E select :=
  fun x _ h => wp_ingestion_select h fun _ _ _ _ h => ⟨x, rfl, h⟩

/-- The insert of a row of content, whether its constraints hold or not. -/
theorem AddsContent.write (row : ContentRow) {k : Bool → IngestionProg α}
    (hk : ∀ b, AddsContent c j m r₀ r x₀ E (k b)) :
    AddsContent c j m r₀ r x₀ E (.write (.insertContent r₀.job.documentVersionId row) k) := by
  intro x σ h
  refine wp_ingestion_onVersion h (fun _ => rfl)
    (fun d d' hd => by simp only [IngestionStmt.check, hd]) (fun σ' h => ?_) fun σ' h => ?_
  · refine Discipline.wp_mono (fun _ _ h' => ?_) (fun _ _ h' => h') (hk true _ σ' h)
    obtain ⟨x', hx', h'⟩ := h'
    exact ⟨x', hx', h'⟩
  · exact hk false x σ' h

theorem AddsContent.insert (hE : RaisesWorking j m r₀ x₀ E) (row : ContentRow) :
    AddsContent c j m r₀ r x₀ E (execute (.insertContent r₀.job.documentVersionId row)) :=
  .write row fun b => by
    cases b with
    | true => exact .ret ()
    | false => exact .raise hE _

variable (hE : RaisesWorking j m r₀ x₀ E)

include hE

theorem addsContent_persistPages (l : List PageData) :
    AddsContent c j m r₀ r x₀ E (persistPages r₀.job.documentVersionId l) := by
  induction l with
  | nil => exact .ret _
  | cons page rest ih =>
    exact .bind .uuid4 fun _ => .bind (.insert hE _) fun _ => .bind ih fun _ => .ret _

theorem addsContent_persistChunks (pageMap : List (ℕ × Uuid)) (l : List ChunkData) :
    AddsContent c j m r₀ r x₀ E (persistChunks r₀.job.documentVersionId pageMap l) := by
  induction l with
  | nil => exact .ret _
  | cons chunk rest ih => exact .bind (.insert hE _) fun _ => ih

theorem addsContent_persistWarnings (result : Uuid) (l : List (String × String)) :
    AddsContent c j m r₀ r x₀ E (persistWarnings r₀.job.documentVersionId result l) := by
  induction l with
  | nil => exact .ret _
  | cons warning rest ih => exact .bind (.insert hE _) fun _ => ih

theorem addsContent_createCandidate (input : CandidateInput) :
    AddsContent c j m r₀ r x₀ E (createCandidate r₀.job.documentVersionId input) := by
  refine .bind .select fun d => ?_
  split
  · exact .ret _
  · split
    · exact .raise hE _
    · refine .bind .uuid4 fun id => .bind (.write _ fun b => .ret b) fun ok => ?_
      cases ok with
      | true => exact .call hE _
      | false =>
        refine .bind .select fun d' => ?_
        split
        · exact .ret _
        · exact .raise hE _

theorem addsContent_createCandidates (l : List CandidateInput) :
    AddsContent c j m r₀ r x₀ E (createCandidates r₀.job.documentVersionId l) := by
  induction l with
  | nil => exact .ret _
  | cons input rest ih => exact .bind (addsContent_createCandidate hE input) fun _ => ih

/-- **Persisting what the parser found adds content to the version.** -/
theorem addsContent_persistContent (output : CanonicalExtractionOutput) :
    AddsContent c j m r₀ r x₀ E (persistContent r₀.job.documentVersionId output) := by
  refine .bind (addsContent_persistPages hE _) fun pageMap => ?_
  refine .bind (addsContent_persistChunks hE _ _) fun _ => ?_
  refine .bind .uuid4 fun resultId => .bind (.insert hE _) fun _ => ?_
  refine .bind (addsContent_persistWarnings hE _ _) fun _ => ?_
  split
  · exact .bind (.call hE _) fun _ => addsContent_createCandidates hE _
  · exact .ret _

end Content

/-! ## The worker -/

section Worker

variable {c : IngestionCall} {cl : ClaimedJob} {n : ℕ} {r₀ r : IngestionRows}
  {x₀ x : VersionRows} {σ : IngestionCfg}

/-- The worker is at its attempt `n`: it holds the claim, and the attempt is the
next one. -/
structure InAttempt (c : IngestionCall) (cl : ClaimedJob) (n : ℕ) (r₀ : IngestionRows) : Prop where
  /-- the call made the claim -/
  token : c.token = some cl.claimToken
  /-- the job is claimed by it -/
  owned : owned cl r₀.job = true
  /-- the job is not over -/
  status : r₀.job.status = .queued ∨ r₀.job.status = .parsing
  /-- the number of the attempt -/
  number : n = r₀.job.currentAttempt + 1

/-- The `try` block commits what the parser found. -/
theorem wp_parseAndPersist {attemptId : Uuid} {Q : IngestionPost WorkerOutcomeStatus}
    {E : IngestionPost IngestionExc} (ha : InAttempt c cl n r₀)
    (h : Working cl.jobId (some (.parsing cl n)) r₀ r x₀ x σ)
    (hE : RaisesWorking cl.jobId (some (.parsing cl n)) r₀ x₀ E)
    (hr : r.job = endAttempt .parsing n r₀.job)
    (hx : x.version = { x₀.version with ingestionStatus := .parsing }) (hQ : ∀ o σ', Q o σ') :
    ingestionDiscipline.wp c (parseAndPersist cl r₀.job.documentVersionId attemptId) Q E σ := by
  simp only [parseAndPersist, Prog.bind_eq, Discipline.wp_bind]
  refine wp_ingestion_call h hE fun output => ?_
  split
  · exact hE _ _ r x h
  · rename_i st hst
    simp only [Discipline.wp_bind]
    refine Discipline.wp_mono (fun _ σ h => ?_) (fun _ _ h => h)
      (addsContent_persistContent hE output x σ h)
    obtain ⟨x', hx', h⟩ := h
    refine wp_ingestion_onJob h hE (fun _ => rfl) (fun _ _ _ => rfl) fun σ h => ?_
    refine wp_transitionJob h hE fun _ σ h => ?_
    refine wp_transitionVersion h hE fun _ σ h => ?_
    refine wp_ingestion_onVersion h (fun _ => rfl) (fun _ _ _ => rfl) (fun σ h => ?_)
      fun σ h => hE _ _ _ _ h
    refine wp_ingestion_call h hE fun _ => ?_
    refine wp_ingestion_commit h (fun now => ?_) fun _ => hQ _ _
    refine .parsed cl n st rfl ha.token rfl ha.owned ha.status ha.number
      (IngestionStatus.isFinal_of_validParserStatusMap hst) ?_ ?_
    · rw [hr]
      rfl
    · rw [hx', hx]

/-- The job has the status now, and may have it. -/
theorem wp_moveJob {j : Uuid} {st : IngestionStatus} {Q : IngestionPost Unit}
    {E : IngestionPost IngestionExc} {m : Option IngestionMark}
    (h : Working j m r₀ r x₀ x σ) (hE : RaisesWorking j m r₀ x₀ E)
    (hQ : r.job.status = st ∨ st ∈ r.job.status.jobTransitions → ∀ σ',
      Working j m r₀ { r with job := { r.job with status := st } } x₀ x σ' → Q () σ') :
    ingestionDiscipline.wp c (moveJob j r.job st) Q E σ := by
  rw [moveJob]
  split
  · exact wp_transitionJob h hE fun ht => hQ (.inr ht)
  · rename_i hst
    have hst : r.job.status = st := not_not.mp hst
    refine hQ (.inl hst) σ ?_
    subst hst
    exact h

/-- The version has the status now, and may have it. -/
theorem wp_moveVersion {j org : Uuid} {st : IngestionStatus} {Q : IngestionPost Unit}
    {E : IngestionPost IngestionExc} {m : Option IngestionMark}
    (h : Working j m r₀ r x₀ x σ) (hE : RaisesWorking j m r₀ x₀ E)
    (hQ : x.version.ingestionStatus = st ∨
      st ∈ x.version.ingestionStatus.versionTransitions → ∀ σ', Working j m r₀ r x₀
        { x with version := { x.version with ingestionStatus := st } } σ' → Q () σ') :
    ingestionDiscipline.wp c
      (moveVersion r₀.job.documentVersionId org x.version.ingestionStatus st) Q E σ := by
  rw [moveVersion]
  split
  · exact wp_transitionVersion h hE fun ht => hQ (.inr ht)
  · rename_i hst
    have hst : x.version.ingestionStatus = st := not_not.mp hst
    refine hQ (.inl hst) σ ?_
    subst hst
    exact h

/-- The end of a failed attempt for the job. -/
theorem wp_failJob {j : Uuid} {st : IngestionStatus} {err : IngestionExc} {Q : IngestionPost Unit}
    {E : IngestionPost IngestionExc} {m : Option IngestionMark}
    (h : Working j m r r x x σ) (hE : RaisesWorking j m r x E)
    (hQ : r.job.status = st ∨ st ∈ r.job.status.jobTransitions → ∀ r' σ',
      r'.job = endAttempt st n r.job → Working j m r r' x x σ' → Q () σ') :
    ingestionDiscipline.wp c (failJob j r st n err) Q E σ := by
  simp only [failJob, Prog.bind_eq, Discipline.wp_bind]
  refine wp_moveJob h hE fun hst σ h => ?_
  refine wp_ingestion_onJob h hE (fun _ => rfl) (fun _ _ _ => rfl) fun σ h => ?_
  intro id
  refine wp_ingestion_onJob h hE (fun _ => rfl)
    (fun d d' hd => by simp only [IngestionStmt.check, hd]) fun σ h => ?_
  exact hQ hst _ _ rfl h

/-- The end of a failed attempt for the version. -/
theorem wp_failVersion {j : Uuid} {st : IngestionStatus} {Q : IngestionPost Unit}
    {E : IngestionPost IngestionExc} {m : Option IngestionMark}
    (h : Working j m r₀ r x₀ x₀ σ) (hE : RaisesWorking j m r₀ x₀ E)
    (hQ : x₀.version.ingestionStatus = st ∨
      st ∈ x₀.version.ingestionStatus.versionTransitions → ∀ x' σ',
        x'.version = { x₀.version with
          ingestionStatus := st, extractionStatus := x'.version.extractionStatus } →
        x'.contents = x₀.contents → Working j m r₀ r x₀ x' σ' → Q () σ') :
    ingestionDiscipline.wp c (failVersion r₀.job st) Q E σ := by
  simp only [failVersion, Prog.bind_eq, Discipline.wp_bind]
  refine wp_ingestion_select h fun d σ _ hx h => ?_
  rw [hx, Option.filter_some, if_pos (by simp [h.paired.organization])]
  simp only [Discipline.wp_bind]
  refine wp_moveVersion h hE fun hst σ h => ?_
  refine wp_ingestion_onVersion h (fun _ => rfl) (fun _ _ _ => rfl) (fun σ h => ?_)
    fun σ h => hE _ _ _ _ h
  exact hQ hst _ σ (by rfl) (by rfl) h

/-- What may follow a status in both tables. -/
theorem status_of_moves {s v : IngestionStatus} {now : Bool} {st : IngestionStatus}
    (hst : st = if now then .queued else .failed) (h : InStep s v)
    (hjob : s = st ∨ st ∈ s.jobTransitions) (hversion : v = st ∨ st ∈ v.versionTransitions) :
    s = .queued ∨ s = .parsing ∨ s = .failed ∧ st = .failed := by
  rcases h with ⟨hs | hs, -⟩ | ⟨hfinal, rfl⟩
  · exact .inl hs
  · exact .inr (.inl hs)
  · cases now <;> subst hst <;> cases v <;> simp_all [IngestionStatus.isFinal,
      IngestionStatus.jobTransitions, IngestionStatus.versionTransitions]

/-- The `except` block commits the failure, if the claim is still the worker's. -/
theorem wp_recordFailure {err : IngestionExc} {Q : IngestionPost WorkerOutcomeStatus}
    {E : IngestionPost IngestionExc} (htoken : c.token = some cl.claimToken)
    (hmark : σ.mark = some (.parsing cl n)) (hE : ∀ e σ', E e σ') (hQ : ∀ o σ', Q o σ') :
    ingestionDiscipline.wp c (recordFailure cl n err) Q E σ := by
  simp only [recordFailure, Prog.bind_eq, Discipline.wp_bind]
  refine wp_ingestion_rollback fun d _ =>
    wp_ingestion_lockJob rfl (fun _ _ => hQ _ _) fun r x σ _ h => ?_
  rw [hmark] at h
  have hE' : RaisesWorking cl.jobId (some (.parsing cl n)) r x E := fun e σ _ _ _ => hE e σ
  dsimp only
  split
  · exact hQ _ _
  · rename_i howned
    simp only [Discipline.wp_bind]
    refine wp_failJob h hE' fun hjob r' σ hr' h => ?_
    refine wp_failVersion h hE' fun hversion x' σ hx' hcontents h => ?_
    refine wp_ingestion_call h hE' fun _ => ?_
    refine wp_ingestion_commit h (fun now => ?_) fun _ => hQ _ _
    have hst : (if n < r.job.maxAttempts then IngestionStatus.queued else .failed) =
        if decide (n < r.job.maxAttempts) = true then .queued else .failed := by simp
    exact .failed cl n _ rfl htoken rfl (by simpa using howned)
      (status_of_moves hst h.paired.status hjob hversion) rfl hr' hx' hcontents

/-- The job is being parsed now. -/
theorem wp_startParsing {j : Uuid} {Q : IngestionPost Unit} {E : IngestionPost IngestionExc}
    {m : Option IngestionMark} (hj : cl.jobId = j) (h : Working j m r₀ r x₀ x σ)
    (hE : RaisesWorking j m r₀ x₀ E)
    (hQ : ∀ σ', Working j m r₀ { r with job := { r.job with status := .parsing } } x₀ x σ' →
      Q () σ') : ingestionDiscipline.wp c (startParsing cl r.job) Q E σ := by
  rw [startParsing, hj]
  split
  · exact wp_transitionJob h hE fun _ => hQ
  · rename_i hst
    have hst : r.job.status = .parsing := not_not.mp hst
    refine hQ σ ?_
    rw [← hst]
    exact h

/-- The begin of an attempt. -/
theorem wp_beginAttempt {Q : IngestionPost Uuid} {E : IngestionPost IngestionExc}
    {m : Option IngestionMark} (h : Working cl.jobId m r r x x σ)
    (hE : RaisesWorking cl.jobId m r x E)
    (hQ : ∀ id r' σ', r'.job = endAttempt .parsing (r.job.currentAttempt + 1) r.job →
      Working cl.jobId m r r' x x σ' → Q id σ') :
    ingestionDiscipline.wp c (beginAttempt cl r) Q E σ := by
  simp only [beginAttempt, Prog.bind_eq, Discipline.wp_bind]
  refine wp_startParsing rfl h hE fun σ h => ?_
  refine wp_ingestion_onJob h hE (fun _ => rfl) (fun _ _ _ => rfl) fun σ h => ?_
  intro id
  refine wp_ingestion_onJob h hE (fun _ => rfl)
    (fun d d' hd => by simp only [IngestionStmt.check, hd]) fun σ h => ?_
  refine wp_ingestion_call h hE fun _ => ?_
  exact hQ _ _ σ rfl h

/-- `_process_claimed_job`. -/
theorem wp_processClaimedJob {Q : IngestionPost WorkerOutcomeStatus}
    {E : IngestionPost IngestionExc} {m : Option IngestionMark}
    (htoken : c.token = some cl.claimToken) (h : Settled cl m σ) (hpending : σ.pending = [])
    (hE : ∀ e σ', E e σ') (hQ : ∀ o σ', Q o σ') :
    ingestionDiscipline.wp c (processClaimedJob cl) Q E σ := by
  simp only [processClaimedJob, Prog.bind_eq, Discipline.wp_bind]
  refine wp_ingestion_note fun d hd => ⟨htoken, ?_⟩
  obtain ⟨q, hq, horg⟩ := (h.rely hd σ.held σ.pending).job
  refine wp_ingestion_lockJobSkip hpending (fun _ _ => hQ _ _) fun r x σ hqr hevolves h => ?_
  simp only [Bool.and_eq_true, Bool.or_eq_true, beq_iff_eq] at hqr
  obtain ⟨howned, hstatus⟩ := hqr
  -- the job still belongs to the organization of the claim
  have horg' : r.job.organizationId = cl.organizationId := by
    obtain ⟨r', hr', hsame⟩ := hevolves.jobs _ q hq
    obtain rfl := Option.some.inj (h.row.symm.trans hr')
    exact hsame.organization.trans horg
  have hversion : x.version.ingestionStatus = .queued := by
    rcases h.paired.status with ⟨-, hv⟩ | ⟨hfinal, -⟩
    · exact hv
    · rcases hstatus with hs | hs <;> rw [hs] at hfinal <;> cases hfinal
  simp only [Discipline.wp_bind]
  refine wp_ingestion_note fun d' hd' => ?_
  have h' := h.rely hd' _ subset_rfl
  refine ⟨⟨htoken, r, h'.row, howned, rfl⟩, ?_⟩
  have h : Working cl.jobId (some (.parsing cl (r.job.currentAttempt + 1))) r r x x
      { σ with mark := some (.parsing cl (r.job.currentAttempt + 1)), db := d' } :=
    ⟨h'.held, rfl, h'.row, h'.version, h'.paired, h'.replay⟩
  have hE' : RaisesWorking cl.jobId (some (.parsing cl (r.job.currentAttempt + 1))) r x E :=
    fun e σ _ _ _ => hE e σ
  refine wp_beginAttempt h hE' fun attemptId r' σ hr' h => ?_
  refine wp_ingestion_select h fun d _ _ hx h => ?_
  rw [hx, Option.filter_some, if_pos (by simp [h.paired.organization, horg'])]
  simp only [Discipline.wp_bind]
  refine wp_transitionVersion h hE' fun _ σ h => ?_
  rw [Discipline.wp_tryCatch]
  exact wp_parseAndPersist ⟨htoken, howned, hstatus, rfl⟩ h
    (fun e σ _ _ h => wp_recordFailure htoken h.mark hE hQ) hr' rfl hQ

/-- A commit of nothing. -/
theorem wp_ingestion_commit_nil {Q : IngestionPost Unit} {E : IngestionPost IngestionExc}
    (hpending : σ.pending = []) (hQ : ∀ σ', Q () σ') :
    ingestionDiscipline.wp c commit Q E σ := by
  intro d hd
  rw [hpending]
  refine ⟨fun d' hd' => ?_, fun a ha => nomatch ha⟩
  obtain rfl := Except.ok.inj hd'
  exact ⟨fun r _ => ingestionDiscipline.agree_refl r _, hd.inv, .same rfl, hQ _⟩

/-- The claim of a locked job is logged and committed, or the command was used
before. -/
theorem wp_logClaim {w : String} {token : Uuid} {t : ℕ} {log : IngestionCommandLog} {j : Uuid}
    {k : IngestionProg WorkerOutcomeStatus} {Q : IngestionPost WorkerOutcomeStatus}
    {E : IngestionPost IngestionExc} (hc : c.token = some token) (ht : t ≤ σ.db.now)
    (hclaimable : claimable t r.job = true)
    (h : Working j (some (.claiming j)) r { r with job := handOut w token t r.job } x x σ)
    (hE : ∀ e σ', E e σ') (hQ : ∀ o σ', Q o σ')
    (hk : ∀ σ', σ'.pending = [] → σ'.mark = some (.claiming j) →
      σ'.db.jobs j = some { r with job := handOut w token t r.job } →
      ingestionDiscipline.wp c k Q E σ') :
    ingestionDiscipline.wp c
      ((Prog.write (.insertCommandLog log) .ret : IngestionProg Bool).bind fun logged =>
        if !logged then rollback.bind fun _ => .ret .rejected
        else commit.bind fun _ => k) Q E σ := by
  simp only [Discipline.wp_bind]
  intro d hd
  have h₁ := h.rely hd (σ.held ∪ {x | x ∈ (IngestionStmt.insertCommandLog log).target.toList})
    Set.subset_union_left
  refine ⟨fun _ => ?_, fun _ => ⟨id, fun _ _ => hQ _ _⟩⟩
  change ingestionDiscipline.wp c (commit.bind fun _ => k) Q E _
  rw [Discipline.wp_bind]
  intro d' hd'
  have hrow : d'.jobs j = some r := (hd'.agree _ h₁.held).1.trans h₁.row
  have hversion : d'.versions r.job.documentVersionId = some x :=
    ((hd'.agree _ h₁.held).2 r h₁.row).trans h₁.version
  refine ⟨fun d'' hd'' => ?_, fun _ _ => ⟨id, hE _ _⟩⟩
  change ingestionSchema.replay (σ.pending ++ [.insertCommandLog log]) d' = .ok d'' at hd''
  rw [Schema.replay_append _ (h₁.replay d' hrow hversion), Schema.replay] at hd''
  split at hd''
  · obtain rfl := Except.ok.inj hd''
    have hstep : IngestionStep c (some (.claiming j)) d'
        (ingestionSchema.apply (.insertCommandLog log)
          ((d'.setJob j { r with job := handOut w token t r.job }).setVersion
            r.job.documentVersionId x)) :=
      .changed j r _ x x hrow hversion
        (.claimed w token t hc rfl ((ht.trans hd.evolves.now).trans hd'.evolves.now) hclaimable
          rfl rfl) rfl rfl rfl rfl
    refine ⟨fun row hrow' => ?_, hstep.inv hd'.inv, h₁.mark ▸ hstep, ?_⟩
    · exact agree_of_change hd'.inv hrow rfl rfl fun heq => hrow' (heq ▸ h₁.held)
    · exact hk _ rfl h₁.mark (Function.update_self ..)
  · cases hd''

/-- `claim_and_process_envelope`. -/
theorem wp_claimAndProcessEnvelope {begun : Option ℕ} {envelope : IngestionCommandEnvelope}
    {w : String} {token : Uuid} {Q : IngestionPost WorkerOutcomeStatus}
    {E : IngestionPost IngestionExc} (hc : c.token = some token)
    (hbegun : ∀ t ∈ begun, t ≤ σ.db.now) (hpending : σ.pending = []) (hE : ∀ e σ', E e σ')
    (hQ : ∀ o σ', Q o σ') :
    ingestionDiscipline.wp c (claimAndProcessEnvelope begun envelope w token) Q E σ := by
  rw [claimAndProcessEnvelope]
  split
  · exact hE _ _
  · simp only [Prog.bind_eq, Discipline.wp_bind]
    intro i
    simp only [Discipline.wp_ret]
    split
    · exact hQ _ _
    · simp only [Discipline.wp_bind]
      refine wp_ingestion_note fun d hd => ⟨trivial, ?_⟩
      intro d' hd'
      have hview : ingestionModel.schema.view σ.pending d' = d' := by rw [hpending]; rfl
      simp only [Discipline.wp_ret, hview, claimIngestionJob, Prog.bind_eq, Discipline.wp_bind]
      have ht : begun.getD d'.now ≤ d'.now := by
        cases begun with
        | none => exact le_rfl
        | some t => exact ((hbegun t rfl).trans hd.evolves.now).trans hd'.evolves.now
      refine wp_ingestion_lockJobSkip hpending (fun d'' _ => ?_)
        fun r x σ hclaimable hevolves h => ?_
      · change ingestionDiscipline.wp c (commit.bind fun _ => .ret .noJobClaimed) Q E _
        rw [Discipline.wp_bind]
        exact wp_ingestion_commit_nil rfl (hQ _)
      · have hE' : RaisesWorking envelope.jobId (some (.claiming envelope.jobId)) r x E :=
          fun e σ _ _ _ => hE e σ
        simp only [Discipline.wp_bind]
        refine wp_ingestion_onJob_evolves h hE' (fun _ => rfl) (fun _ _ _ => rfl)
          fun σ' hevolves' h => ?_
        refine wp_logClaim hc ((ht.trans hevolves.now).trans hevolves'.now) hclaimable h hE hQ
          fun σ'' hpending' hmark' hrow => ?_
        exact wp_processClaimedJob hc ⟨hmark', _, hrow, rfl⟩ hpending' hE hQ

/-- One round of the worker loop. -/
theorem wp_poll {w : String} {token : Uuid} (hc : c.token = some token)
    (hpending : σ.pending = []) :
    ingestionDiscipline.wp c (poll w token) (fun _ _ => True) (fun _ _ => True) σ := by
  simp only [poll, Prog.bind_eq, Discipline.wp_bind]
  intro d hd
  simp only [Discipline.wp_ret]
  split
  · trivial
  · simp only [Discipline.wp_bind]
    intro commandId key
    have hnow : (ingestionModel.schema.view σ.pending d).now = d.now := by rw [hpending]; rfl
    rw [hnow]
    refine wp_claimAndProcessEnvelope hc (fun t ht => ?_) hpending (fun _ _ => trivial)
      fun _ _ => trivial
    obtain rfl := Option.some.inj ht
    exact le_rfl

end Worker

/-! ## Uploads -/

section Uploads

variable {c : IngestionCall} {l : List IngestionStmt} {σ : IngestionCfg}
  {E : IngestionPost IngestionExc}

/-- The process has run the statements and locked their rows. -/
structure Uploading (l : List IngestionStmt) (σ : IngestionCfg) : Prop where
  /-- the statements -/
  pending : σ.pending = l
  /-- the locks -/
  held : ∀ s ∈ l, ∀ row ∈ s.target, row ∈ σ.held

theorem wp_upload_execute {s : IngestionStmt} {Q : IngestionPost Unit} (h : Uploading l σ)
    (hE : ∀ e σ', E e σ') (hQ : ∀ σ', Uploading (l ++ [s]) σ' → Q () σ') :
    ingestionDiscipline.wp c (execute s) Q E σ := by
  intro d hd
  refine ⟨fun _ => hQ _ ⟨by rw [h.pending], fun t ht row hrow => ?_⟩, fun _ => ⟨id, hE _ _⟩⟩
  rcases List.mem_append.mp ht with ht | ht
  · exact .inl (h.held t ht row hrow)
  · rw [List.mem_singleton.mp ht] at hrow
    exact .inr (Option.mem_toList.mpr hrow)

theorem wp_upload_select {Q : IngestionPost IngestionDb} (h : Uploading l σ)
    (hQ : ∀ d σ', Uploading l σ' → Q d σ') : ingestionDiscipline.wp c select Q E σ :=
  fun _ _ => hQ _ _ ⟨h.pending, h.held⟩

theorem wp_upload_call {α : Type} {f : IngestionAnswer → α} {Q : IngestionPost α}
    (hE : ∀ e σ', E e σ') (hQ : ∀ a, Q a σ) : ingestionDiscipline.wp c (call f) Q E σ := by
  intro i
  obtain ⟨_, _, _, failure, _, _⟩ := i
  cases failure with
  | none => exact hQ _
  | some err => exact hE _ _

/-- A new job is committed with its version. -/
theorem wp_upload_commit {v j : Uuid} {version : IngestedVersion} {job : IngestionJob}
    {Q : IngestionPost Unit} (h : Uploading [.createVersion v version, .createJob j job] σ)
    (hc : c.token = none) (hjob : job.documentVersionId = v)
    (hstatus : job.status = .queued) (hattempt : job.currentAttempt = 0)
    (hmax : job.maxAttempts = 3) (htoken : job.claimToken = none)
    (hversion : version.ingestionStatus = .queued) (hE : ∀ e σ', E e σ') (hQ : ∀ σ', Q () σ') :
    ingestionDiscipline.wp c commit Q E σ := by
  intro d hd
  rw [h.pending]
  refine ⟨fun d' hd' => ?_, fun _ _ => ⟨id, hE _ _⟩⟩
  obtain ⟨hv, hd'⟩ := (Schema.replay_cons_eq_ok ingestionSchema).mp hd'
  obtain ⟨hj, hd'⟩ := (Schema.replay_cons_eq_ok ingestionSchema).mp hd'
  obtain rfl := Except.ok.inj hd'
  have hv : d.versions v = none := by simpa [ingestionSchema, IngestionStmt.check] using hv
  simp only [ingestionSchema, IngestionStmt.check, IngestionStmt.apply, Bool.and_eq_true,
    Option.isNone_iff_eq_none, IngestionDb.setVersion_versions, IngestionDb.setVersion_jobs,
    hjob, Function.update_self, Option.any_some, beq_iff_eq] at hj
  have hstep : IngestionStep c σ.mark d
      (IngestionStmt.apply (.createJob j job) (IngestionStmt.apply (.createVersion v version) d)) :=
    .created j v job version hc hj.1 hv hjob hj.2 hstatus hattempt hmax htoken hversion rfl rfl
      rfl rfl
  refine ⟨fun row hrow => ?_, hstep.inv hd.inv, hstep, hQ _⟩
  cases row with
  | version v => trivial
  | job i =>
    have hij : i ≠ j := fun hij => hrow (hij ▸ h.held (.createJob j job) (by simp) _ rfl)
    refine ⟨Function.update_of_ne hij .., fun r hr => Function.update_of_ne (fun heq => ?_) ..⟩
    obtain ⟨x, hx, -⟩ := hd.inv.paired i r hr
    rw [heq, hv] at hx
    cases hx

theorem wp_insertUpload {org doc : Uuid} {declared detected : String} (hc : c.token = none)
    (h : Uploading [] σ) (hE : ∀ e σ', E e σ') :
    ingestionDiscipline.wp c (DocumentsRouter.insertUpload org doc declared detected)
      (fun _ _ => True) E σ := by
  simp only [DocumentsRouter.insertUpload, Prog.bind_eq, Discipline.wp_bind]
  intro v
  refine wp_upload_execute h hE fun σ h => ?_
  intro j
  refine wp_upload_select h fun d σ h => ?_
  refine wp_upload_execute h hE fun σ h => ?_
  refine wp_upload_call hE fun _ => ?_
  exact wp_upload_commit h hc rfl rfl rfl rfl rfl rfl hE fun _ => trivial

/-- `finalize_upload`. -/
theorem wp_finalizeUpload {org doc : Uuid} {declared detected : String} (hc : c.token = none)
    (h : Uploading [] σ) :
    ingestionDiscipline.wp c (DocumentsRouter.finalizeUpload org doc declared detected)
      (fun _ _ => True) (fun _ _ => True) σ := by
  rw [DocumentsRouter.finalizeUpload, Discipline.wp_tryCatch]
  exact wp_insertUpload hc h fun _ _ _ _ => trivial

end Uploads

/-- **Every ingestion call keeps the discipline.** -/
theorem ingestionDiscipline_sound : ingestionDiscipline.Sound where
  body c d _ := by
    cases c with
    | finalizeUpload org doc declared detected =>
      exact wp_finalizeUpload rfl ⟨rfl, fun _ hs => nomatch hs⟩
    | claimAndProcessEnvelope envelope w token =>
      change ingestionDiscipline.wp _ ((claimAndProcessEnvelope none envelope w token).bind
        fun _ => .ret ()) _ _ _
      rw [Discipline.wp_bind]
      exact wp_claimAndProcessEnvelope rfl (fun _ ht => nomatch ht) rfl (fun _ _ => trivial)
        fun _ _ => trivial
    | poll w token => exact wp_poll rfl rfl
  env_inv e d h := ⟨h.paired, h.injective, h.listed, h.nodup⟩
  env_evolves e d := ⟨fun _ r hr => ⟨r, hr, .refl _⟩, Nat.le_add_right _ _⟩
  env_agree e r d := by
    cases r with
    | job j => exact ⟨rfl, fun _ _ => rfl⟩
    | version v => trivial

end FinanceIntelligence
