import FinanceIntelligence.JobRuns
import FinanceIntelligence.Observations
import FinanceIntelligence.UnderstoodRequest

/-!
# What `create_analysis` returns

`createAnalysisDto` is `create_analysis` with the job that it returns. A retry is
answered with whatever job has the idempotency key; that it is the caller's own
request again is not checked.

* `idempotencyKey_binds` — one key has **at most one job** in every run; that the job is the one
  that was asked for holds as long as nobody else has taken the key.
-/

namespace FinanceIntelligence

/-- `AnalysisJobDTO`. -/
structure AnalysisJobDto where
  id : Uuid
  userId : Uuid
  status : AnalysisJobStatus
  requestPrompt : String
  normalizedRequest : StoredRequest
  createdAt : ℕ
deriving DecidableEq

/-- The job as it is returned. -/
def AnalysisJobDto.ofJob (id : Uuid) (job : AnalysisJob) : AnalysisJobDto :=
  ⟨id, job.userId, job.status, job.requestPrompt, job.normalizedRequest, job.createdAt⟩

/-- `DOCUMENT_SCOPE`, empty where it is missing. -/
def StoredRequest.documentScope? : StoredRequest → List Uuid
  | .documentScope ids => ids
  | _ => []

namespace AnalysisRouter

open AnalysisProg

/-- The job that has the key already; the key is unique. -/
def existingJob (d : AnalysisDb) (key : Option String) : Option (Uuid × JobRows) :=
  if key.isSome then d.jobs.find? fun (_, r) => r.job.idempotencyKey == key else none

/-- The job of the request is inserted at the time `now`, and returned. -/
def insertJobDto (user : Uuid) (prompt : String) (idempotencyKey : Option String)
    (documents : List Uuid) (now : ℕ) : AnalysisProg AnalysisJobDto := do
  let scope := documents.eraseDups
  let valid ← validDocuments scope
  if !valid then
    Prog.raise (.http 404 "")
  else
    let id ← uuid4
    let job : AnalysisJob :=
      { userId := user
        status := .received
        requestPrompt := prompt
        normalizedRequest := if scope = [] then .empty else .documentScope scope
        lockedBy := none
        leaseExpiresAt := none
        idempotencyKey := idempotencyKey
        claimToken := none
        recoveryCount := 0
        createdAt := now }
    execute (.createJob id job)
    commit
    return .ofJob id job

/-- `create_analysis`, with the job that it returns. -/
def createAnalysisDto (user : Uuid) (prompt : String) (idempotencyKey : Option String)
    (documents : List Uuid) : AnalysisProg AnalysisJobDto := do
  let d ← select
  match existingJob d (idempotencyKey.filter (· ≠ "")) with
  | some (j, r) => return .ofJob j r.job
  | none => insertJobDto user prompt idempotencyKey documents d.now

theorem existingJob_isSome (d : AnalysisDb) (key : Option String) :
    (existingJob d key).isSome = true ↔
      key.isSome ∧ d.jobs.any fun (_, r) => r.job.idempotencyKey == key := by
  rw [existingJob]
  split
  · simp_all
  · simp_all

/-- Without what it returns it is `create_analysis`. -/
theorem createAnalysisDto_bind (user : Uuid) (prompt : String) (key : Option String)
    (documents : List Uuid) :
    ((createAnalysisDto user prompt key documents).bind fun _ => .ret ()) =
      createAnalysis user prompt key documents := by
  simp only [createAnalysisDto, insertJobDto, createAnalysis, Prog.bind_eq, Prog.pure_eq, select,
    Prog.bind]
  congr 1
  funext d
  have hsome := existingJob_isSome d (key.filter (· ≠ ""))
  cases hex : existingJob d (key.filter (· ≠ "")) with
  | some x =>
    rw [hex] at hsome
    rw [if_pos (hsome.mp rfl)]
    rfl
  | none =>
    rw [hex] at hsome
    have hno : ¬ ((key.filter (· ≠ "")).isSome = true ∧ (d.jobs.any fun (_, r) =>
        r.job.idempotencyKey == key.filter (· ≠ "")) = true) := fun h => by
      simpa using hsome.mpr h
    rw [if_neg hno]
    refine (Prog.bind_assoc ..).trans ?_
    congr 1
    funext valid
    cases valid with
    | false => rfl
    | true =>
      have hcommit : (commit.bind fun _ => .ret ()) = commit := Prog.bind_ret _
      simp only [Bool.not_true, Bool.false_eq_true, if_false, Prog.bind_assoc, Prog.ret_bind,
        hcommit]

end AnalysisRouter

open AnalysisRouter

/-! ## Keys -/

/-- A statement on a job keeps its key. -/
theorem JobStep.idempotencyKey {cfg : EngineConfig} {c : AnalysisCall} {m : Option Mark} {j : Uuid}
    {r r' : JobRows} (h : JobStep cfg c m j r r') :
    r'.job.idempotencyKey = r.job.idempotencyKey := by
  cases h with
  | claim w token now _ _ _ hr' => rw [hr']; rfl
  | recover w token now _ _ _ hr' =>
    obtain ⟨attempts, rfl⟩ := hr'
    rfl
  | renew token w lease _ _ hr' => rw [hr']
  | engine token w _ _ hr' =>
    cases hr' with
    | toolCommitted h =>
      obtain ⟨req, hjob⟩ := h.job
      rw [hjob]
    | clarified _ _ hjob =>
      obtain ⟨req, hjob⟩ := hjob
      rw [hjob]
    | ended _ _ hjob =>
      obtain ⟨req, hjob⟩ := hjob
      rw [hjob]
      rfl
    | completed _ _ _ _ _ hjob =>
      obtain ⟨req, hjob⟩ := hjob
      rw [hjob]
      rfl
  | answerExpired _ _ _ _ _ hjob => rw [hjob]
  | answered _ _ _ _ _ hjob => rw [hjob]
  | clarificationCancelled _ _ _ _ hjob => rw [hjob]
  | clarificationExpired _ _ hjob => rcases hjob with ⟨-, hjob⟩ | ⟨-, hjob⟩ <;> rw [hjob]
  | analysisCancelled _ _ hr' => rw [hr']
  | saved _ _ _ _ hr' => rw [hr']

/-- What `uq_analysis_jobs_tenant_idempotency` keeps: every job is listed, and no two
of them have one key. -/
structure KeysUnique (d : AnalysisDb) : Prop where
  /-- every job is listed -/
  listed : ∀ j r, d.rows j = some r → j ∈ d.jobIds
  /-- a key has one job -/
  unique : ∀ i j r r' key, d.rows i = some r → d.rows j = some r' →
    r.job.idempotencyKey = some key → r'.job.idempotencyKey = some key → i = j

/-- A job that the constraint lets in. -/
theorem KeysUnique.createJob {d : AnalysisDb} (h : KeysUnique d) {id : Uuid} {job : AnalysisJob}
    (hcheck : analysisSchema.check (.createJob id job) d = true) :
    KeysUnique (analysisSchema.apply (.createJob id job) d) := by
  simp only [analysisSchema, Bool.and_eq_true, Bool.or_eq_true, Option.isNone_iff_eq_none] at hcheck
  obtain ⟨hnew, hkey⟩ := hcheck
  have hrows : ∀ j r, (analysisSchema.apply (.createJob id job) d).rows j = some r →
      j = id ∧ r.job = job ∨ d.rows j = some r := by
    intro j r hr
    by_cases hj : j = id
    · simp only [analysisSchema, AnalysisDb.setRows, if_pos hj] at hr
      exact .inl ⟨hj, (Option.some.inj hr) ▸ rfl⟩
    · simp only [analysisSchema, AnalysisDb.setRows, if_neg hj] at hr
      exact .inr hr
  -- an older job does not have the key of the new one
  have hold : ∀ j r key, d.rows j = some r → r.job.idempotencyKey = some key →
      job.idempotencyKey ≠ some key := by
    intro j r key hr hk hk'
    rcases hkey with hkey | hkey
    · rw [hk'] at hkey
      cases hkey
    · have hmem : (j, r) ∈ d.jobs := List.mem_filterMap.mpr ⟨j, h.listed j r hr, by rw [hr]; rfl⟩
      have := List.all_eq_true.mp hkey (j, r) hmem
      simp [hk, hk'] at this
  refine ⟨fun j r hr => ?_, fun i j r r' key hi hj hk hk' => ?_⟩
  · rcases hrows j r hr with ⟨rfl, -⟩ | hr
    · exact List.mem_append_right _ (List.mem_singleton_self j)
    · exact List.mem_append_left _ (h.listed j r hr)
  · rcases hrows i r hi with ⟨hi, hr⟩ | hi <;> rcases hrows j r' hj with ⟨hj, hr'⟩ | hj
    · exact hi.trans hj.symm
    · exact absurd (hr ▸ hk) (hold j r' key hj hk')
    · exact absurd (hr' ▸ hk') (hold i r key hi hk)
    · exact h.unique i j r r' key hi hj hk hk'

theorem KeysUnique.createJobs {l : List Stmt} (hl : ∀ x ∈ l, ∃ id job, x = .createJob id job) :
    ∀ {d d' : AnalysisDb}, KeysUnique d → analysisSchema.replay l d = .ok d' → KeysUnique d' := by
  induction l with
  | nil =>
    intro d d' h hd
    cases hd
    exact h
  | cons x l ih =>
    intro d d' h hd
    obtain ⟨id, job, rfl⟩ := hl x List.mem_cons_self
    obtain ⟨hcheck, hrest⟩ := (Schema.replay_cons_eq_ok _).mp hd
    exact ih (fun y hy => hl y (List.mem_cons_of_mem _ hy)) (h.createJob hcheck) hrest

/-- A job stays listed. -/
theorem jobIds_subset_view (l : List Stmt) (d : AnalysisDb) :
    d.jobIds ⊆ (analysisSchema.view l d).jobIds := by
  induction l generalizing d with
  | nil => exact fun _ h => h
  | cons x l ih =>
    refine List.Subset.trans ?_ (ih (analysisSchema.apply x d))
    cases x with
    | createJob id job => exact List.subset_append_left _ _
    | onJob id w =>
      simp only [analysisSchema]
      split
      · exact fun _ h => h
      · exact fun _ h => h

/-- `create_analysis` only creates jobs. -/
theorem writesOnly_createAnalysis (user : Uuid) (prompt : String) (key : Option String)
    (documents : List Uuid) : (createAnalysis user prompt key documents).WritesOnly
      fun x => ∃ id job, x = .createJob id job := by
  intro d
  simp only [Prog.ret_bind, Prog.bind_eq, Prog.pure_eq]
  split
  · trivial
  · refine Prog.WritesOnly.bind ?_ fun valid => ?_
    · rw [validDocuments]
      split
      · trivial
      · exact writesOnly_call _
    · split
      · trivial
      · intro i
        refine ⟨⟨i.uuid, _, rfl⟩, fun b => ?_⟩
        cases b with
        | false => trivial
        | true =>
          intro e
          cases e <;> trivial

/-- What the calls write: `create_analysis` creates jobs. -/
def CreatesOnly (c : AnalysisCall) (x : Stmt) : Prop :=
  ∀ user prompt key documents, c = .createAnalysis user prompt key documents →
    ∃ id job, x = .createJob id job

theorem createsOnly_body (cfg : EngineConfig) (c : AnalysisCall) :
    ((analysisModel cfg).body c).WritesOnly (CreatesOnly c) := by
  cases c with
  | createAnalysis user prompt key documents =>
    exact (writesOnly_createAnalysis user prompt key documents).mono fun x hx _ _ _ _ _ => hx
  | _ => exact Prog.writesOnly_of_all (fun x _ _ _ _ h => by cases h) _

/-- **One job for a key**, in every run. -/
theorem keysUnique {cfg : EngineConfig} {now : ℕ} {s : AnalysisSys}
    (h : AnalysisReachable cfg now s) : KeysUnique s.db := by
  refine h.invariant (P := fun s => KeysUnique s.db)
    ⟨fun j r hr => (by cases hr), fun i j r r' key hr => (by cases hr)⟩ ?_
  intro s s' a h ih _ hs
  rcases (analysis_safe h).step_db hs with hdb | ⟨e, -, hdb⟩ | ⟨pr, ha, hview, hg⟩
  · rw [hdb]
    exact ih
  · rw [hdb]
    exact ⟨ih.listed, ih.unique⟩
  by_cases hc : ∃ user prompt key documents, pr.call = .createAnalysis user prompt key documents
  · obtain ⟨user, prompt, key, documents, hc⟩ := hc
    rcases ha.replay hs with hdb | hreplay
    · rw [hdb]
      exact ih
    · obtain ⟨p, i, rfl, hp, -⟩ := ha
      exact ih.createJobs (fun x hx =>
        (h.writesOnly (createsOnly_body cfg) p pr hp).2 x hx user prompt key documents hc) hreplay
  · -- no job is created, and those that exist keep their keys
    have hkept : ∀ j r', s'.db.rows j = some r' →
        ∃ r, s.db.rows j = some r ∧ r'.job.idempotencyKey = r.job.idempotencyKey := by
      intro j r' hr'
      have hchange := hg.2 j
      rw [hr'] at hchange
      generalize hr : s.db.rows j = o at hchange
      cases hchange with
      | same => exact ⟨r', rfl, rfl⟩
      | created user prompt key documents job hcall => exact absurd ⟨_, _, _, _, hcall⟩ hc
      | step hstep => exact ⟨_, rfl, hstep.idempotencyKey⟩
    refine ⟨fun j r' hr' => ?_, fun i j r₁ r₂ key h₁ h₂ hk₁ hk₂ => ?_⟩
    · obtain ⟨r, hr, -⟩ := hkept j r' hr'
      rw [hview]
      exact jobIds_subset_view _ _ (ih.listed j r hr)
    · obtain ⟨r, hr, hkey⟩ := hkept i r₁ h₁
      obtain ⟨r', hr', hkey'⟩ := hkept j r₂ h₂
      exact ih.unique i j r r' key hr hr' (hkey ▸ hk₁) (hkey' ▸ hk₂)

/-! ## What is returned -/

/-- The analysis plane, whose calls of `create_analysis` report the job that they
return. -/
def replyModel (cfg : EngineConfig) :
    Model Row Stmt Answer (Mark ⊕ AnalysisJobDto) AnalysisDb Exc AnalysisCall ℕ where
  schema := analysisSchema
  body
    | .createAnalysis user prompt key documents =>
      ((createAnalysisDto user prompt key documents).observed AnalysisJobDto).bind Prog.observe
    | c => ((analysisModel cfg).body c).observed AnalysisJobDto
  env := (analysisModel cfg).env

/-- A state of the analysis plane, with reports. -/
abbrev ReplySys := Sys Row Stmt Answer (Mark ⊕ AnalysisJobDto) AnalysisDb Exc AnalysisCall

/-- The reports change nothing. -/
theorem replyModel_silences (cfg : EngineConfig) : (replyModel cfg).Silences (analysisModel cfg) where
  schema := rfl
  body c := by
    cases c with
    | createAnalysis user prompt key documents =>
      simp only [replyModel, Prog.silent_bind, Prog.silent_observed, Prog.silent_observe]
      exact (createAnalysisDto_bind user prompt key documents).symm
    | _ => exact Prog.silent_observed.symm
  env := rfl

/-- The job is one of this user, with this prompt and these documents. -/
structure AnalysisJobDto.Answers (dto : AnalysisJobDto) (user : Uuid) (prompt : String)
    (documents : List Uuid) : Prop where
  userId : dto.userId = user
  requestPrompt : dto.requestPrompt = prompt
  /-- the documents -/
  scope : dto.normalizedRequest.documentScope? = documents.eraseDups

instance (dto : AnalysisJobDto) (user : Uuid) (prompt : String) (documents : List Uuid) :
    Decidable (dto.Answers user prompt documents) :=
  decidable_of_iff (dto.userId = user ∧ dto.requestPrompt = prompt ∧
      dto.normalizedRequest.documentScope? = documents.eraseDups)
    ⟨fun ⟨h₁, h₂, h₃⟩ => ⟨h₁, h₂, h₃⟩, fun ⟨h₁, h₂, h₃⟩ => ⟨h₁, h₂, h₃⟩⟩

/-- A call that looks up its key finds no job, or one of its own request. -/
def OwnKey (cfg : EngineConfig) (a : Act Answer AnalysisCall ℕ) (s : ReplySys) : Prop :=
  ∀ p i user prompt key documents j r, a = .exec p i →
    s.proc p = some ⟨.createAnalysis user prompt key documents,
      (replyModel cfg).body (.createAnalysis user prompt key documents), [], none⟩ →
    existingJob s.db (key.filter (· ≠ "")) = some (j, r) →
      (AnalysisJobDto.ofJob j r.job).Answers user prompt documents

/-- What a call may report: jobs of its own request. -/
def RepliesOwn (c : AnalysisCall) (l : List AnalysisJobDto) : Prop :=
  ∀ user prompt key documents, c = .createAnalysis user prompt key documents →
    ∀ dto ∈ l, dto.Answers user prompt documents

section Replies

variable {cfg : EngineConfig} {user : Uuid} {prompt : String} {key : Option String}
  {documents : List Uuid} {p now : ℕ} {l : List AnalysisJobDto} {s : ReplySys}

/-- A job that is created is one of its request. -/
theorem along_insertJobDto (c : AnalysisCall) (createdAt : ℕ) :
    ((insertJobDto user prompt key documents createdAt).observed AnalysisJobDto).Along
      (RepliesOwn c) (fun dto l => l = [] ∧ dto.Answers user prompt documents)
      (fun _ _ => True) [] := by
  simp only [insertJobDto, Prog.bind_eq, Prog.pure_eq, Prog.observed_bind, Prog.along_bind]
  refine Prog.along_observed (fun valid => ?_) fun _ => trivial
  cases valid with
  | false => trivial
  | true =>
    simp only [Bool.not_true, Bool.false_eq_true, if_false, Prog.observed_bind, Prog.along_bind]
    refine Prog.along_observed (fun id => ?_) fun _ => trivial
    refine Prog.along_observed (fun _ => ?_) fun _ => trivial
    refine Prog.along_observed (fun _ => ?_) fun _ => trivial
    refine ⟨rfl, rfl, rfl, ?_⟩
    simp only [AnalysisJobDto.ofJob]
    split
    · rename_i hscope
      exact hscope.symm
    · rfl

/-- A reply of its own request. -/
theorem along_reply {dto : AnalysisJobDto} (h : dto.Answers user prompt documents) :
    (Prog.observe dto : Prog Row Stmt Answer (Mark ⊕ AnalysisJobDto) AnalysisDb Exc Unit).Along
      (RepliesOwn (.createAnalysis user prompt key documents)) (fun _ _ => True)
      (fun _ _ => True) [] := by
  refine ⟨fun user' prompt' key' documents' hc dto' hdto => ?_, trivial⟩
  cases hc
  obtain rfl := List.mem_singleton.mp hdto
  exact h

/-- The other calls report nothing. -/
theorem replyModel_body {c : AnalysisCall}
    (hc : ¬ ∃ user prompt key documents, c = .createAnalysis user prompt key documents) :
    (replyModel cfg).body c = ((analysisModel cfg).body c).observed AnalysisJobDto := by
  cases c with
  | createAnalysis user prompt key documents => exact absurd ⟨_, _, _, _, rfl⟩ hc
  | _ => rfl

/-- What a process reports whose keys are its own. -/
theorem repliesOwn (h : (replyModel cfg).Observed (OwnKey cfg) (emptyAnalysisDb now) p l s)
    {pr : Proc Row Stmt Answer (Mark ⊕ AnalysisJobDto) AnalysisDb Exc AnalysisCall}
    (hp : s.proc p = some pr) : l = [] ∨ RepliesOwn pr.call l := by
  refine h.holds (P := RepliesOwn) (fun c => ?_) (fun {c i s s' pr'} hok hp hexec hp' hcall => ?_) hp
  · cases c with
    | createAnalysis user prompt key documents => rfl
    | _ => exact Prog.report_observed
  by_cases hc : ∃ user prompt key documents, c = .createAnalysis user prompt key documents
  · obtain ⟨user, prompt, key, documents, rfl⟩ := hc
    have hstep : (replyModel cfg).exec p i s ⟨.createAnalysis user prompt key documents,
        (replyModel cfg).body (.createAnalysis user prompt key documents), [], none⟩ =
        some (s.put p ⟨.createAnalysis user prompt key documents,
          ((match existingJob s.db (key.filter (· ≠ "")) with
            | some (j, r) => .ret (.ofJob j r.job)
            | none => insertJobDto user prompt key documents s.db.now :
              AnalysisProg AnalysisJobDto).observed AnalysisJobDto).bind Prog.observe,
          [], none⟩) := rfl
    obtain rfl := Option.some.inj (hstep.symm.trans hexec)
    rw [Sys.proc_put, Function.update_self] at hp'
    obtain rfl := Option.some.inj hp'
    simp only [Model.Tracks, Prog.along_bind]
    cases hex : existingJob s.db (key.filter (· ≠ "")) with
    | some x => exact along_reply (hok p i user prompt key documents x.1 x.2 rfl hp hex)
    | none =>
      refine (along_insertJobDto _ s.db.now).mono (fun dto l h => ?_) fun _ _ _ => trivial
      obtain ⟨rfl, hdto⟩ := h
      exact along_reply hdto
  · rw [replyModel_body hc] at hexec
    have htracks : Model.Tracks RepliesOwn
        ⟨c, ((analysisModel cfg).body c).observed AnalysisJobDto, [], none⟩ [] :=
      Prog.along_observed (fun _ => trivial) fun _ => trivial
    have := (htracks.exec hexec hp').1
    simpa only [Prog.report_observed, List.append_nil] using this

end Replies

/-- **A key binds its request**, in runs in which no call finds its key taken by
another request: at most one job has a key, in every run, and a job that is returned
is one of the user, with the prompt and the documents of the call. -/
theorem idempotencyKey_binds (cfg : EngineConfig) (now : ℕ) :
    (∀ s, (replyModel cfg).Reachable (emptyAnalysisDb now) s →
      ∀ i j r r' key, s.db.rows i = some r → s.db.rows j = some r' →
        r.job.idempotencyKey = some key → r'.job.idempotencyKey = some key → i = j) ∧
    ∀ p l s, (replyModel cfg).Observed (OwnKey cfg) (emptyAnalysisDb now) p l s →
      ∀ pr user prompt key documents, s.proc p = some pr →
        pr.call = .createAnalysis user prompt key documents →
          ∀ dto ∈ l, dto.Answers user prompt documents := by
  refine ⟨fun s h i j r r' key hi hj hk hk' => ?_,
    fun p l s h pr user prompt key documents hp hc dto hdto => ?_⟩
  · obtain ⟨t, ht, hsilent⟩ := (replyModel_silences cfg).reachable h
    rw [← hsilent.db] at hi hj
    exact (keysUnique ht).unique i j r r' key hi hj hk hk'
  · rcases repliesOwn h hp with rfl | hreplies
    · cases hdto
    · exact hreplies user prompt key documents hc dto hdto

/-! ## Concrete runs -/

/-- A process of `create_analysis` finds no other request under its key. -/
def ownKeyTest (a : Act Answer AnalysisCall ℕ) (s : ReplySys) : Bool :=
  match a with
  | .exec p _ => (s.proc p).all fun pr =>
    match pr.call with
    | .createAnalysis user prompt key documents =>
      (existingJob s.db (key.filter (· ≠ ""))).all fun (j, r) =>
        decide ((AnalysisJobDto.ofJob j r.job).Answers user prompt documents)
    | _ => true
  | _ => true

theorem ownKey_of_ownKeyTest (cfg : EngineConfig) (a : Act Answer AnalysisCall ℕ) (s : ReplySys)
    (h : ownKeyTest a s = true) : OwnKey cfg a s := by
  rintro p i user prompt key documents j r rfl hp hex
  simp only [ownKeyTest, hp, Option.all_some, hex] at h
  exact of_decide_eq_true h

/-- The process serves this call of `create_analysis`. -/
def servesCreation (p : ℕ) (user : Uuid) (prompt : String) (key : Option String)
    (documents : List Uuid) (s : ReplySys) : Bool :=
  (s.proc p).any fun pr =>
    match pr.call with
    | .createAnalysis user' prompt' key' documents' =>
      user' == user && prompt' == prompt && key' == key && documents' == documents
    | _ => false

theorem proc_of_servesCreation {p : ℕ} {user : Uuid} {prompt : String} {key : Option String}
    {documents : List Uuid} {s : ReplySys}
    (h : servesCreation p user prompt key documents s = true) :
    ∃ pr, s.proc p = some pr ∧ pr.call = .createAnalysis user prompt key documents := by
  obtain ⟨pr, hp, h⟩ := (Option.any_eq_true _ _).mp h
  refine ⟨pr, hp, ?_⟩
  cases hc : pr.call <;> simp_all

/-- A retry of the same user gets the same job. -/
theorem idempotencyKey_binds_retry : ∃ s pr dto,
    (replyModel ⟨.ascii⟩).Observed (OwnKey ⟨.ascii⟩) (emptyAnalysisDb 0) 1 [dto] s ∧
      s.proc 1 = some pr ∧ dto.id = 7 ∧ dto.Answers 5 "npl" [3] := by
  have hrun : ((replyModel ⟨.ascii⟩).observeBy ownKeyTest 1
      (Model.serve 0 (.createAnalysis 5 "npl" (some "k") [3, 3]) 6 { uuid := 7 } ++
        Model.serve 1 (.createAnalysis 5 "npl" (some "k") [3]) 2 { uuid := 8 }) []
      (Model.idle (emptyAnalysisDb 0))).map
        (fun x => (x.1.map (·.id), servesCreation 1 5 "npl" (some "k") [3] x.2)) =
          some ([7], true) := by
    decide
  obtain ⟨⟨l, s⟩, hl, hx⟩ := Option.map_eq_some_iff.mp hrun
  obtain ⟨hids, hcall⟩ : l.map (·.id) = [7] ∧ servesCreation 1 5 "npl" (some "k") [3] s = true := by
    simpa using hx
  obtain ⟨dto, rfl, hid⟩ := List.map_eq_singleton_iff.mp hids
  obtain ⟨pr, hp, hc⟩ := proc_of_servesCreation hcall
  have hobserved := Model.Observed.start.observeBy
    (ownKey_of_ownKeyTest ⟨.ascii⟩) hl
  exact ⟨s, pr, dto, hobserved, hp, hid, (idempotencyKey_binds ⟨.ascii⟩ 0).2 1 [dto] s
    hobserved pr 5 "npl" (some "k") [3] hp hc dto (List.mem_singleton_self dto)⟩

/-- **A key does not bind its request**: the user 6 gets the job of the user 5. -/
theorem idempotencyKey_not_binds :
    ¬ ∀ (cfg : EngineConfig) (now p : ℕ) (l : List AnalysisJobDto) (s : ReplySys),
      (replyModel cfg).Observed (fun _ _ => True) (emptyAnalysisDb now) p l s →
        ∀ pr user prompt key documents, s.proc p = some pr →
          pr.call = .createAnalysis user prompt key documents →
            ∀ dto ∈ l, dto.Answers user prompt documents := by
  intro hbinds
  have hrun : ((replyModel ⟨.ascii⟩).observeBy (fun _ _ => true) 1
      (Model.serve 0 (.createAnalysis 5 "npl" (some "k") []) 5 { uuid := 7 } ++
        Model.serve 1 (.createAnalysis 6 "roe" (some "k") []) 2 { uuid := 8 }) []
      (Model.idle (emptyAnalysisDb 0))).map
        (fun x => (x.1.map (·.userId), servesCreation 1 6 "roe" (some "k") [] x.2)) =
          some ([5], true) := by
    decide
  obtain ⟨⟨l, s⟩, hl, hx⟩ := Option.map_eq_some_iff.mp hrun
  obtain ⟨husers, hcall⟩ : l.map (·.userId) = [5] ∧
      servesCreation 1 6 "roe" (some "k") [] s = true := by simpa using hx
  obtain ⟨dto, rfl, huser⟩ := List.map_eq_singleton_iff.mp husers
  obtain ⟨pr, hp, hc⟩ := proc_of_servesCreation hcall
  have hobserved : Model.Observed _ (fun _ _ => True) _ _ [dto] s :=
    Model.Observed.start.observeBy (fun _ _ _ => trivial) hl
  have hanswers := hbinds ⟨.ascii⟩ 0 1 [dto] s hobserved pr 6 "roe" (some "k") [] hp hc dto
    (List.mem_singleton_self dto)
  have := huser.symm.trans hanswers.userId
  exact absurd this (by decide)

end FinanceIntelligence
