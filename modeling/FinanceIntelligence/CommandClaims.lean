import FinanceIntelligence.CommandEnvelope
import FinanceIntelligence.IngestionRuns
import FinanceIntelligence.TransactionTrace

/-!
# Commands are executed at most once

A claim of a job is committed together with the row of the command log that records the command,
and no two rows of the log agree in the command id, or in organization and idempotency key. So
in every run **a command claims at most once**, and a presentation that is refused has changed
nothing.
-/

namespace FinanceIntelligence

open IngestionProg IngestionQueue IngestionWorker

/-! ## The command log -/

/-- Two rows of the log stand for different commands. -/
def DifferentCommands (a b : IngestionCommandLog) : Prop :=
  a.commandId ≠ b.commandId ∧
    ¬ (a.organizationId = b.organizationId ∧ a.idempotencyKey = b.idempotencyKey)

/-- A statement leaves the log alone, or adds a row for another command. -/
theorem IngestionStmt.commandLogs_apply (x : IngestionStmt) {d : IngestionDb}
    (hcheck : x.check d = true) : (x.apply d).commandLogs = d.commandLogs ∨ ∃ log,
      (x.apply d).commandLogs = d.commandLogs ++ [log] ∧
        ∀ b ∈ d.commandLogs, DifferentCommands b log := by
  have hjob : ∀ j f, (d.mapJob j f).commandLogs = d.commandLogs := by
    intro j f
    rw [IngestionDb.mapJob]
    split <;> rfl
  have hversion : ∀ v f, (d.mapVersion v f).commandLogs = d.commandLogs := by
    intro v f
    rw [IngestionDb.mapVersion]
    split <;> rfl
  cases x with
  | insertCommandLog log =>
    refine .inr ⟨log, rfl, fun b hb => ?_⟩
    simp only [check, Bool.and_eq_true, List.all_eq_true, bne_iff_ne, ne_eq, Bool.not_eq_eq_eq_not,
      Bool.not_true, Bool.and_eq_false_imp, beq_iff_eq, beq_eq_false_iff_ne] at hcheck
    exact ⟨(hcheck.2 b hb).1, fun h => (hcheck.2 b hb).2 h.1 h.2⟩
  | updateJob j set => exact .inl (hjob ..)
  | insertAttempt j a => exact .inl (hjob ..)
  | updateAttempt j id set => exact .inl (hjob ..)
  | updateVersion v set => exact .inl (hversion ..)
  | insertContent v row => exact .inl (hversion ..)
  | createVersion v version => exact .inl rfl
  | createJob j job => exact .inl rfl

/-- The rows of the log stay, and stand for different commands. -/
structure LogsExtend (d d' : IngestionDb) : Prop where
  /-- the rows stay -/
  stay : d.commandLogs <+: d'.commandLogs
  /-- the rows stand for different commands if they did -/
  distinct : d.commandLogs.Pairwise DifferentCommands → d'.commandLogs.Pairwise DifferentCommands

theorem LogsExtend.of_eq {d d' : IngestionDb} (h : d'.commandLogs = d.commandLogs) :
    LogsExtend d d' := ⟨h ▸ List.prefix_rfl, fun hd => h ▸ hd⟩

/-- A transaction extends the log. -/
theorem LogsExtend.of_replay {l : List IngestionStmt} {d d' : IngestionDb}
    (h : ingestionSchema.replay l d = .ok d') : LogsExtend d d' := by
  induction l generalizing d with
  | nil =>
    cases h
    exact .of_eq rfl
  | cons x l ih =>
    obtain ⟨hcheck, hrest⟩ := ingestionSchema.replay_cons_eq_ok.mp h
    have hext := ih hrest
    rcases x.commandLogs_apply hcheck with hsame | ⟨log, hlog, hdiff⟩
    · exact ⟨hsame ▸ hext.stay, fun hd => hext.distinct (hsame.symm ▸ hd)⟩
    · refine ⟨(List.prefix_append _ [log]).trans (hlog ▸ hext.stay), fun hd => hext.distinct ?_⟩
      change (x.apply d).commandLogs.Pairwise DifferentCommands
      rw [hlog]
      exact List.pairwise_append.mpr ⟨hd, List.pairwise_singleton _ _, fun b hb c hc =>
        List.mem_singleton.mp hc ▸ hdiff b hb⟩

variable {now : ℕ} {s s' : IngestionSys} {a : IngestionAct}

/-- **A step extends the log.** -/
theorem LogsExtend.of_step (h : IngestionReachable now s)
    (hs : ingestionModel.step a s = some s') : LogsExtend s.db s'.db := by
  rcases (ingestion_safe h).step_db hs with hdb | ⟨e, -, hdb⟩ | ⟨pr, hcommit, -⟩
  · exact .of_eq (by rw [hdb])
  · exact .of_eq (by rw [hdb]; rfl)
  · rcases hcommit.replay hs with hdb | hreplay
    · exact .of_eq (by rw [hdb])
    · exact .of_replay hreplay

/-- In every run the rows of the log stand for different commands. -/
theorem commandLogs_distinct (h : IngestionReachable now s) :
    s.db.commandLogs.Pairwise DifferentCommands :=
  h.invariant (P := fun s => s.db.commandLogs.Pairwise DifferentCommands) List.Pairwise.nil
    fun hreach ih _ hs => (LogsExtend.of_step hreach hs).distinct ih

/-! ## Claims -/

/-- The call presents the command that the row records; the worker loop signs its envelopes
itself. -/
def IngestionCall.Presents (log : IngestionCommandLog) : IngestionCall → Prop
  | .finalizeUpload _ _ _ _ => False
  | .claimAndProcessEnvelope envelope _ _ =>
    envelope.commandId = log.commandId ∧ envelope.jobId = log.jobId ∧
      envelope.idempotencyKey = log.idempotencyKey
  | .poll _ _ => True

/-- The statements that claim a job and record the command. -/
structure ClaimStatements (organization : Uuid → Option Uuid) (c : IngestionCall) (j : Uuid)
    (w : String) (token : Uuid) (t : ℕ) (log : IngestionCommandLog) (l : List IngestionStmt) :
    Prop where
  /-- the job is handed out, and the command recorded -/
  statements : l = [.updateJob j (handOut w token t), .insertCommandLog log]
  /-- the claim token is the one of the call -/
  token : c.token = some token
  /-- the command is the one of the call -/
  presents : c.Presents log
  /-- the row names the job -/
  job : log.jobId = j
  /-- and the organization of the job -/
  organization : organization j = some log.organizationId

/-- The jobs belong to these organizations. -/
def Organized (organization : Uuid → Option Uuid) (d : IngestionDb) : Prop :=
  ∀ j r, d.jobs j = some r → organization j = some r.job.organizationId

/-- The organizations of the jobs. -/
def organizationOf (d : IngestionDb) (j : Uuid) : Option Uuid :=
  (d.jobs j).map fun r => r.job.organizationId

theorem organized_organizationOf (d : IngestionDb) : Organized (organizationOf d) d := by
  intro j r hr
  rw [organizationOf, hr, Option.map_some]

/-- What a call commits after it has noted that it claims: nothing, or a claim with its
command. -/
def ClaimCommit (organization : Uuid → Option Uuid) (c : IngestionCall)
    (τ : Prog.Trace IngestionStmt IngestionMark) : Prop :=
  ∀ j, τ.mark = some (.claiming j) →
    τ.pending = [] ∨ ∃ w token t log, ClaimStatements organization c j w token t log τ.pending

/-- The note is not that a claim begins. -/
def PastClaim (m : IngestionMark) : Prop := ∀ j, m ≠ .claiming j

/-- Past the claim there is nothing to say about a commit. -/
theorem claimCommit_of_settled {organization : Uuid → Option Uuid} {c : IngestionCall}
    {τ : Prog.Trace IngestionStmt IngestionMark} (h : τ.Settled PastClaim) :
    ClaimCommit organization c τ := fun j hj => absurd rfl (h.mark _ hj j)

/-! ### The programs that process a claimed job -/

section Notes

variable {P : IngestionMark → Prop} {α : Type}

theorem notesOnly_execute (x : IngestionStmt) : (execute x).NotesOnly P := by
  intro b
  cases b <;> trivial

theorem notesOnly_call (f : IngestionAnswer → α) : (call f).NotesOnly P := by
  intro i
  dsimp only
  split <;> trivial

theorem notesOnly_commit : commit.NotesOnly P := by
  intro e
  cases e <;> trivial

theorem notesOnly_lockJob (j : Uuid) (q : IngestionJob → Bool) : (lockJob j q).NotesOnly P := by
  intro b
  cases b
  · trivial
  · exact fun _ => trivial

theorem notesOnly_lockVersion (v : Uuid) (q : IngestedVersion → Bool) :
    (lockVersion v q).NotesOnly P := by
  intro b
  cases b
  · trivial
  · exact fun _ => trivial

theorem notesOnly_lockJobSkip (j : Uuid) (q : IngestionJob → Bool) :
    (lockJobSkip j q).NotesOnly P := by
  intro l
  cases l
  · trivial
  · exact fun _ => trivial

theorem notesOnly_transitionJob (j : Uuid) (expected target : IngestionStatus) (org : Uuid) :
    (StateMachineService.transitionJob j expected target org).NotesOnly P := by
  refine (notesOnly_lockJob j fun job => job.organizationId == org).bind fun r => ?_
  cases r with
  | none => trivial
  | some r =>
    dsimp only
    split
    · trivial
    · exact (notesOnly_call _).bind fun _ => notesOnly_execute _

theorem notesOnly_transitionVersion (v : Uuid) (expected target : IngestionStatus) (org : Uuid) :
    (StateMachineService.transitionVersion v expected target org).NotesOnly P := by
  refine (notesOnly_lockVersion v fun version => version.organizationId == org).bind fun x => ?_
  cases x with
  | none => trivial
  | some x =>
    dsimp only
    split
    · trivial
    · exact (notesOnly_call _).bind fun _ => notesOnly_execute _

theorem notesOnly_persistPages (v : Uuid) (l : List PageData) :
    (persistPages v l).NotesOnly P := by
  induction l with
  | nil => trivial
  | cons page l ih =>
    intro i
    exact (notesOnly_execute _).bind fun _ => ih.bind fun _ => trivial

theorem notesOnly_persistChunks (v : Uuid) (pageMap : List (ℕ × Uuid)) (l : List ChunkData) :
    (persistChunks v pageMap l).NotesOnly P := by
  induction l with
  | nil => trivial
  | cons chunk l ih => exact (notesOnly_execute _).bind fun _ => ih

theorem notesOnly_persistWarnings (v result : Uuid) (l : List (String × String)) :
    (persistWarnings v result l).NotesOnly P := by
  induction l with
  | nil => trivial
  | cons x l ih => exact (notesOnly_execute _).bind fun _ => ih

theorem notesOnly_createCandidate (v : Uuid) (input : CandidateInput) :
    (FactCandidateService.createCandidate v input).NotesOnly P := by
  intro d
  change Prog.NotesOnly P (if _ then _ else _)
  split
  · trivial
  · split
    · trivial
    · intro i b
      cases b with
      | true => exact notesOnly_call _
      | false =>
        intro d'
        change Prog.NotesOnly P (if _ then _ else _)
        split <;> trivial

theorem notesOnly_createCandidates (v : Uuid) (l : List CandidateInput) :
    (createCandidates v l).NotesOnly P := by
  induction l with
  | nil => trivial
  | cons input l ih => exact (notesOnly_createCandidate v input).bind fun _ => ih

theorem notesOnly_persistContent (v : Uuid) (output : CanonicalExtractionOutput) :
    (persistContent v output).NotesOnly P := by
  refine (notesOnly_persistPages v _).bind fun pageMap => ?_
  refine (notesOnly_persistChunks v pageMap _).bind fun _ i => ?_
  refine (notesOnly_execute _).bind fun _ => ?_
  refine (notesOnly_persistWarnings v _ _).bind fun _ => ?_
  split
  · exact (notesOnly_call _).bind fun _ => notesOnly_createCandidates v _
  · trivial

theorem notesOnly_beginAttempt (cl : ClaimedJob) (r : IngestionRows) :
    (beginAttempt cl r).NotesOnly P := by
  have hstart : (startParsing cl r.job).NotesOnly P := by
    rw [startParsing]
    split
    · exact notesOnly_transitionJob _ _ _ _
    · trivial
  refine hstart.bind fun _ => (notesOnly_execute _).bind fun _ i => ?_
  exact (notesOnly_execute _).bind fun _ => (notesOnly_call _).bind fun _ => trivial

theorem notesOnly_failJob (j : Uuid) (r : IngestionRows) (next : IngestionStatus) (n : ℕ)
    (err : IngestionExc) : (failJob j r next n err).NotesOnly P := by
  have hmove : (moveJob j r.job next).NotesOnly P := by
    rw [moveJob]
    split
    · exact notesOnly_transitionJob _ _ _ _
    · trivial
  exact hmove.bind fun _ => (notesOnly_execute _).bind fun _ i => notesOnly_execute _

theorem notesOnly_failVersion (job : IngestionJob) (next : IngestionStatus) :
    (failVersion job next).NotesOnly P := by
  simp only [failVersion, Prog.bind_eq]
  intro d
  simp only [Prog.ret_bind]
  split
  · trivial
  · rename_i x _
    have hmove : (moveVersion job.documentVersionId job.organizationId x.version.ingestionStatus
        next).NotesOnly P := by
      rw [moveVersion]
      split
      · exact notesOnly_transitionVersion _ _ _ _
      · trivial
    exact hmove.bind fun _ => notesOnly_execute _

end Notes

/-- The presentation was refused. -/
def WorkerOutcomeStatus.Refused (o : WorkerOutcomeStatus) : Prop :=
  o = .rejected ∨ o = .noJobClaimed

theorem not_refused_outcomeOf (status : String) : ¬ (outcomeOf status).Refused := by
  rw [outcomeOf]
  split_ifs <;> simp [WorkerOutcomeStatus.Refused]

section Traces

variable {V : IngestionDb → Prop} {K : Prog.Trace IngestionStmt IngestionMark → Prop} {α β : Type}
  {Q : α → Prog.Trace IngestionStmt IngestionMark → Prop}
  {F : IngestionExc → Prog.Trace IngestionStmt IngestionMark → Prop}
  {τ : Prog.Trace IngestionStmt IngestionMark}

/-- Past the claim, one part and the next. -/
theorem traced_andThen (hK : ∀ τ, τ.Settled PastClaim → K τ)
    (hF : ∀ x τ, τ.Settled PastClaim → F x τ) (hτ : τ.Settled PastClaim) {p : IngestionProg β}
    (hp : p.NotesOnly PastClaim) {f : β → IngestionProg α}
    (hf : ∀ b τ, τ.Settled PastClaim → (f b).Traced V K Q F τ) : (p.bind f).Traced V K Q F τ := by
  rw [Prog.traced_bind]
  exact hp.traced hK hf hF hτ

variable {Q : WorkerOutcomeStatus → Prog.Trace IngestionStmt IngestionMark → Prop}

/-- The `except` block does not refuse. -/
theorem traced_recordFailure (hK : ∀ τ, τ.Settled PastClaim → K τ)
    (hF : ∀ x τ, τ.Settled PastClaim → F x τ) (hQ : ∀ o τ, ¬ o.Refused → Q o τ) (cl : ClaimedJob)
    (n : ℕ) (err : IngestionExc) (hτ : τ.Settled PastClaim) :
    (recordFailure cl n err).Traced V K Q F τ := by
  simp only [recordFailure, Prog.bind_eq]
  refine traced_andThen hK hF hτ (show rollback.NotesOnly PastClaim from trivial) fun _ τ hτ => ?_
  refine traced_andThen hK hF hτ (notesOnly_lockJob _ _) fun r τ hτ => ?_
  cases r with
  | none => exact hQ _ _ (by simp [WorkerOutcomeStatus.Refused])
  | some r =>
    dsimp only
    split
    · exact hQ _ _ (by simp [WorkerOutcomeStatus.Refused])
    · refine traced_andThen hK hF hτ (notesOnly_failJob _ _ _ _ _) fun _ τ hτ => ?_
      refine traced_andThen hK hF hτ (notesOnly_failVersion _ _) fun _ τ hτ => ?_
      refine traced_andThen hK hF hτ (notesOnly_call _) fun _ τ hτ => ?_
      refine traced_andThen hK hF hτ notesOnly_commit fun _ τ hτ => ?_
      exact hQ _ _ (by simp [WorkerOutcomeStatus.Refused])

/-- What is processed is not refused. -/
theorem traced_processClaimedJob (hK : ∀ τ, τ.Settled PastClaim → K τ)
    (hF : ∀ x τ, τ.Settled PastClaim → F x τ) (hQ : ∀ o τ, ¬ o.Refused → Q o τ) (cl : ClaimedJob)
    (hτ : τ.committed = true) : (processClaimedJob cl).Traced V K Q F τ := by
  have hnote : ∀ m, PastClaim m → ∀ τ : Prog.Trace IngestionStmt IngestionMark,
      τ.committed = true → Prog.Trace.Settled PastClaim { τ with mark := some m } :=
    fun m hm τ hτ => ⟨hτ, fun n hn => Option.some.inj hn ▸ hm⟩
  simp only [processClaimedJob, Prog.bind_eq]
  change Prog.Traced V K Q F (Prog.bind (lockJobSkip cl.jobId fun job =>
    owned cl job && (job.status == .queued || job.status == .parsing)) _) _
  refine traced_andThen hK hF (hnote (.processing cl) (by rintro _ ⟨⟩) τ hτ)
    (notesOnly_lockJobSkip _ _) fun r τ hτ => ?_
  cases r with
  | none => exact hQ _ _ (by simp [WorkerOutcomeStatus.Refused])
  | some r =>
    change Prog.Traced V K Q F (Prog.bind (beginAttempt cl r) _) _
    refine traced_andThen hK hF (hnote (.parsing cl (r.job.currentAttempt + 1)) (by rintro _ ⟨⟩)
      τ hτ.committed) (notesOnly_beginAttempt _ _) fun attemptId τ hτ => ?_
    refine traced_andThen hK hF hτ (show select.NotesOnly PastClaim from fun _ => trivial)
      fun d τ hτ => ?_
    split
    · simp only [failMissingVersion, Prog.bind_eq]
      refine traced_andThen hK hF hτ (notesOnly_transitionJob _ _ _ _) fun _ τ hτ => ?_
      refine traced_andThen hK hF hτ (notesOnly_execute _) fun _ τ hτ => ?_
      refine traced_andThen hK hF hτ notesOnly_commit fun _ τ hτ => ?_
      exact hQ _ _ (by simp [WorkerOutcomeStatus.Refused])
    · refine traced_andThen hK hF hτ (notesOnly_transitionVersion _ _ _ _) fun _ τ hτ => ?_
      rw [Prog.traced_tryCatch]
      have hF' : ∀ err τ, τ.Settled PastClaim →
          (recordFailure cl (r.job.currentAttempt + 1) err).Traced V K Q F τ :=
        fun err τ hτ => traced_recordFailure hK hF hQ cl _ err hτ
      simp only [parseAndPersist, Prog.bind_eq]
      refine traced_andThen hK hF' hτ (notesOnly_call _) fun output τ hτ => ?_
      split
      · exact hF' _ _ hτ
      · refine traced_andThen hK hF' hτ (notesOnly_persistContent _ _) fun _ τ hτ => ?_
        refine traced_andThen hK hF' hτ (notesOnly_execute _) fun _ τ hτ => ?_
        refine traced_andThen hK hF' hτ (notesOnly_transitionJob _ _ _ _) fun _ τ hτ => ?_
        refine traced_andThen hK hF' hτ (notesOnly_transitionVersion _ _ _ _) fun _ τ hτ => ?_
        refine traced_andThen hK hF' hτ (notesOnly_execute _) fun _ τ hτ => ?_
        refine traced_andThen hK hF' hτ (notesOnly_call _) fun _ τ hτ => ?_
        refine traced_andThen hK hF' hτ notesOnly_commit fun _ τ hτ => ?_
        exact hQ _ _ (not_refused_outcomeOf _)

/-- **The ways of a presentation**: it commits a claim with its command, and if it is refused it
has committed nothing. -/
theorem traced_claimAndProcessEnvelope {organization : Uuid → Option Uuid} {c : IngestionCall}
    {begun : Option ℕ} {envelope : IngestionCommandEnvelope} {w : String} {token : Uuid}
    (hc : c.token = some token)
    (hpresents : ∀ org, c.Presents
      ⟨envelope.commandId, envelope.jobId, org, envelope.idempotencyKey⟩)
    (hQ : ∀ (o : WorkerOutcomeStatus) (τ : Prog.Trace IngestionStmt IngestionMark),
      (o.Refused → τ.committed = false) → Q o τ) :
    (claimAndProcessEnvelope begun envelope w token).Traced (Organized organization)
      (ClaimCommit organization c) Q (fun _ _ => True) {} := by
  rw [claimAndProcessEnvelope]
  split
  · trivial
  · simp only [Prog.bind_eq, Prog.traced_bind]
    intro i
    simp only [Prog.traced_ret]
    split
    · exact hQ _ _ fun _ => rfl
    · simp only [Prog.traced_bind]
      -- the note, the time, and the lock on the job
      intro d _
      simp only [Prog.traced_ret, claimIngestionJob, Prog.bind_eq, Prog.traced_bind]
      intro l
      cases l with
      | nil =>
        -- no job is free: the commit has nothing to write
        exact ⟨fun j _ => .inl rfl, hQ _ _ fun _ => rfl, fun _ => trivial⟩
      | cons row l =>
        intro d' hd'
        simp only [Prog.traced_ret]
        cases hr : d'.jobs envelope.jobId with
        | none => exact ⟨fun j _ => .inl rfl, hQ _ _ fun _ => rfl, fun _ => trivial⟩
        | some r =>
          simp only [Prog.traced_bind]
          refine ⟨?_, trivial⟩
          refine ⟨?_, hQ _ _ fun _ => rfl⟩
          -- the claim and its command are pending
          refine ⟨fun j hj => .inr ⟨w, token, begun.getD d.now, ⟨envelope.commandId, envelope.jobId,
            r.job.organizationId, envelope.idempotencyKey⟩, ?_⟩, ?_, fun _ => trivial⟩
          · cases hj
            exact ⟨rfl, hc, hpresents _, rfl, hd' rfl _ r hr⟩
          · exact traced_processClaimedJob (fun _ => claimCommit_of_settled) (fun _ _ _ => trivial)
              (fun o τ ho => hQ o τ fun h => absurd h ho) _ rfl

end Traces

/-- The ways of the calls. -/
theorem traced_body (organization : Uuid → Option Uuid) (c : IngestionCall) :
    (ingestionModel.body c).Traced (Organized organization) (ClaimCommit organization c)
      (fun _ _ => True) (fun _ _ => True) {} := by
  cases c with
  | finalizeUpload org doc declared detected =>
    change (DocumentsRouter.finalizeUpload org doc declared detected).Traced _ _ _ _ _
    simp only [DocumentsRouter.finalizeUpload, DocumentsRouter.insertUpload, Prog.bind_eq,
      Prog.traced_tryCatch, Prog.traced_bind]
    intro v
    refine ⟨?_, trivial⟩
    intro j d _
    refine ⟨?_, trivial⟩
    intro i
    dsimp only
    split
    · -- an upload notes no claim
      refine ⟨?_, trivial, fun _ => trivial⟩
      rintro _ ⟨⟩
    · trivial
  | claimAndProcessEnvelope envelope w token =>
    change ((claimAndProcessEnvelope none envelope w token).bind fun _ => .ret ()).Traced _ _ _ _ _
    rw [Prog.traced_bind]
    exact traced_claimAndProcessEnvelope rfl (fun _ => ⟨rfl, rfl, rfl⟩) fun _ _ _ => trivial
  | poll w token =>
    change (poll w token).Traced _ _ _ _ _
    simp only [poll, Prog.bind_eq, Prog.traced_bind]
    intro d _
    simp only [Prog.traced_ret]
    split
    · trivial
    · simp only [Prog.traced_bind]
      intro commandId key
      exact traced_claimAndProcessEnvelope rfl (fun _ => trivial) fun _ _ _ => trivial

/-! ## Runs -/

/-- The organization of a job does not change. -/
theorem Organized.of_step {organization : Uuid → Option Uuid} (h : IngestionReachable now s)
    (hs : ingestionModel.step a s = some s') (ho : Organized organization s'.db) :
    Organized organization s.db := by
  have hevolves : IngestionEvolves s.db s'.db := by
    rcases (ingestion_safe h).step_db hs with hdb | ⟨e, -, hdb⟩ | ⟨pr, -, -, hguar⟩
    · rw [hdb]
      exact ingestionDiscipline.evolves_refl _
    · rw [hdb]
      exact ingestionDiscipline_sound.env_evolves e s.db
    · exact IngestionStep.evolves hguar
  intro j r hr
  obtain ⟨r', hr', hsame⟩ := hevolves.jobs j r hr
  rw [ho j r' hr', hsame.organization]

/-- The claim on the job is the same. -/
structure KeepsClaim (job job' : IngestionJob) : Prop where
  lockedBy : job'.lockedBy = job.lockedBy
  lockedAt : job'.lockedAt = job.lockedAt
  claimToken : job'.claimToken = job.claimToken

/-- The step is the commit of a claim, made for the command that the row records: the job is
handed out under the token of the presentation, and the row is added to the log. -/
def CommitsClaim (log : IngestionCommandLog) (a : IngestionAct) (s s' : IngestionSys) : Prop :=
  ∃ pr r w token t, Model.Commits a s pr ∧ pr.call.Presents log ∧ pr.call.token = some token ∧
    s.db.jobs log.jobId = some r ∧ r.job.organizationId = log.organizationId ∧
    s'.db.jobs = Function.update s.db.jobs log.jobId
      (some { r with job := handOut w token t r.job }) ∧
    s'.db.commandLogs = s.db.commandLogs ++ [log]

/-- A commit after the note that a claim begins changes nothing, or claims. -/
theorem commitsClaim_of_claiming (h : IngestionReachable now s)
    (hs : ingestionModel.step a s = some s') {pr : IngestionProc} (hcommit : Model.Commits a s pr)
    {j : Uuid} (hmark : pr.mark = some (.claiming j)) :
    s'.db = s.db ∨ ∃ log, log.jobId = j ∧ CommitsClaim log a s s' := by
  have hc := hcommit
  obtain ⟨p, i, rfl, hp, hprog⟩ := hcommit
  obtain ⟨committed, htraced⟩ := Model.Reachable.traced (traced_body (organizationOf s.db))
    (fun hreach hstep ho => ho.of_step hreach hstep) h (organized_organizationOf s.db) hp
  have hclaim : ClaimCommit (organizationOf s.db) pr.call ⟨pr.pending, pr.mark, committed⟩ := by
    cases hpr : pr.prog with
    | commit k =>
      rw [hpr] at htraced
      exact htraced.1
    | _ =>
      rw [hpr] at hprog
      cases hprog
  rcases hc.replay hs with hdb | hreplay
  · exact .inl hdb
  · rcases hclaim j hmark with hnil | ⟨w, token, t, log, hstmts⟩
    · dsimp only at hnil
      rw [hnil] at hreplay
      exact .inl (Except.ok.inj hreplay).symm
    · -- the job is there, since it has an organization
      obtain ⟨r, hr, horg⟩ : ∃ r, s.db.jobs j = some r ∧
          r.job.organizationId = log.organizationId := by
        obtain ⟨r, hr, horg⟩ := Option.map_eq_some_iff.mp hstmts.organization
        exact ⟨r, hr, horg⟩
      have hview := ingestionSchema.replay_eq_ok hreplay
      rw [show pr.pending = _ from hstmts.statements] at hview
      simp only [Schema.view_cons, Schema.view_nil, ingestionSchema, IngestionStmt.apply,
        IngestionDb.mapJob_eq hr] at hview
      obtain rfl := hstmts.job
      exact .inr ⟨log, rfl, pr, r, w, token, t, hc, hstmts.presents, hstmts.token, hr, horg,
        by rw [hview]; rfl, by rw [hview]; rfl⟩

/-- **A claim is committed with its command.** -/
theorem commitsClaim_of_changed (h : IngestionReachable now s)
    (hs : ingestionModel.step a s = some s') {j : Uuid} {r r' : IngestionRows}
    (hr : s.db.jobs j = some r) (hr' : s'.db.jobs j = some r') :
    KeepsClaim r.job r'.job ∨ ∃ log, log.jobId = j ∧ CommitsClaim log a s s' := by
  have hrefl : ∀ {q : IngestionRows}, s'.db.jobs j = some q → q = r' := fun hq =>
    Option.some.inj (hq.symm.trans hr')
  have hsame : s'.db.jobs j = s.db.jobs j → KeepsClaim r.job r'.job := by
    intro hj
    obtain rfl := hrefl (hj.trans hr)
    exact ⟨rfl, rfl, rfl⟩
  rcases ingestion_step h hs with ⟨hjobs, -⟩ | ⟨pr, hcommit, hstep⟩
  · exact .inl (hsame (by rw [hjobs]))
  · cases hstep with
    | same hd => exact .inl (hsame (by rw [hd]))
    | created j' v job version _ hj' _ _ _ _ _ _ _ _ hjobs =>
      have hne : j ≠ j' := fun hjj => by rw [hjj, hj'] at hr; cases hr
      exact .inl (hsame (by rw [hjobs, Function.update_of_ne hne]))
    | changed j' q q' x x' hq _ hchange hjobs =>
      by_cases hjj : j = j'
      · subst hjj
        obtain rfl := Option.some.inj (hr.symm.trans hq)
        obtain rfl := hrefl (by rw [hjobs, Function.update_self])
        cases hchange with
        | claimed w token t _ hmark =>
          exact (commitsClaim_of_claiming h hs hcommit hmark).imp_left fun hdb =>
            hsame (by rw [hdb])
        | parsed cl n st _ _ _ _ _ _ _ hjob =>
          rw [hjob]
          exact .inl ⟨rfl, rfl, rfl⟩
        | failed cl n st _ _ _ _ _ _ hjob =>
          rw [hjob]
          exact .inl ⟨rfl, rfl, rfl⟩
      · exact .inl (hsame (by rw [hjobs, Function.update_of_ne hjj]))

/-- **At most one claim** is committed for the commands of a kind no two of which are different. -/
theorem counted_commitsClaim {P : IngestionCommandLog → Prop}
    (hP : ∀ b c, P b → P c → ¬ DifferentCommands b c) {n : ℕ}
    (h : ingestionModel.Counted (fun a s s' => ∃ log, P log ∧ CommitsClaim log a s s')
      (emptyIngestionDb now) n s) : n ≤ 1 := by
  classical
  refine (h.le_potential (f := fun s => if ∃ log ∈ s.db.commandLogs, P log then 1 else 0)
    ?_).trans (by split <;> simp)
  intro s s' a hreach _ hs
  have hstay : (∃ log ∈ s.db.commandLogs, P log) → ∃ log ∈ s'.db.commandLogs, P log :=
    fun ⟨log, hlog, hp⟩ => ⟨log, (LogsExtend.of_step hreach hs).stay.subset hlog, hp⟩
  refine ⟨?_, ?_⟩
  · by_cases hbefore : ∃ log ∈ s.db.commandLogs, P log
    · rw [if_pos hbefore, if_pos (hstay hbefore)]
    · rw [if_neg hbefore]
      exact Nat.zero_le _
  · rintro ⟨log, hp, pr, r, w, token, t, -, -, -, -, -, -, hlogs⟩
    -- the new row stands for another command than each of the rows before it
    have hdistinct := commandLogs_distinct (.step hreach trivial hs)
    rw [hlogs] at hdistinct
    have hbefore : ¬ ∃ b ∈ s.db.commandLogs, P b := fun ⟨b, hb, hpb⟩ =>
      hP b log hpb hp ((List.pairwise_append.mp hdistinct).2.2 b hb log (List.mem_singleton_self _))
    have hafter : ∃ b ∈ s'.db.commandLogs, P b :=
      ⟨log, hlogs ▸ List.mem_append_right _ (List.mem_singleton_self _), hp⟩
    rw [if_neg hbefore, if_pos hafter]

/-- **A presentation that is refused has changed nothing.** -/
theorem refused_untouched {p : ℕ} {envelope : IngestionCommandEnvelope} {w : String} {token : Uuid}
    {outcome : WorkerOutcomeStatus} {touched : Prop}
    (h : ingestionModel.Through (emptyIngestionDb now) p (.claimAndProcessEnvelope envelope w token)
      (claimAndProcessEnvelope none envelope w token) (.ret outcome) touched s)
    (hrefused : outcome.Refused) : ¬ touched := by
  intro htouched
  have hways : (claimAndProcessEnvelope none envelope w token).Traced
      (Organized (organizationOf s.db))
      (ClaimCommit (organizationOf s.db) (.claimAndProcessEnvelope envelope w token))
      (fun o τ => o.Refused → τ.committed = false) (fun _ _ => True) {} :=
    traced_claimAndProcessEnvelope rfl (fun _ => ⟨rfl, rfl, rfl⟩) fun _ _ => id
  obtain ⟨_, _, committed, -, htraced, htouch⟩ :=
    Model.Through.traced (k := fun _ => .ret ()) rfl
      (fun hreach hstep ho => Organized.of_step hreach hstep ho) hways h
      (organized_organizationOf s.db)
  have hnone : committed = false := htraced hrefused
  rw [htouch htouched] at hnone
  cases hnone

/-- **A command is executed at most once and cannot be altered.** The canonical payload tells the
signed fields; an envelope that is accepted carries fields that were signed, if its signature was
not forged. In every run of any number of workers, uploads and presentations of any envelopes: the
claim on a job changes only by the commit of a claim, together with the row of the log that records
its command; at most one such commit is made for a command id, and for an organization and an
idempotency key; and a presentation that is refused has changed nothing. -/
theorem command_executedOnce (hmacSha256 : List ℕ → List ℕ → List Char) (now : ℕ) :
    (∀ e g payload, e.getCanonicalPayload = .ok payload → g.getCanonicalPayload = .ok payload →
        CommandEnvelope.SameFields e g) ∧
      (∀ secretResolver signed t maxSkewSeconds e,
        CommandEnvelope.Unforged hmacSha256 secretResolver signed e →
        e.validateEnvelope hmacSha256 secretResolver t maxSkewSeconds = .ok () →
        ∃ g secret, signed g secret ∧ e.SameFields g) ∧
      (∀ s s' a j r r', IngestionReachable now s → ingestionModel.step a s = some s' →
        s.db.jobs j = some r → s'.db.jobs j = some r' →
        KeepsClaim r.job r'.job ∨ ∃ log, log.jobId = j ∧ CommitsClaim log a s s') ∧
      (∀ commandId n s, ingestionModel.Counted
        (fun a s s' => ∃ log, log.commandId = commandId ∧ CommitsClaim log a s s')
        (emptyIngestionDb now) n s → n ≤ 1) ∧
      (∀ organizationId idempotencyKey n s, ingestionModel.Counted
        (fun a s s' => ∃ log, (log.organizationId = organizationId ∧
          log.idempotencyKey = idempotencyKey) ∧ CommitsClaim log a s s')
        (emptyIngestionDb now) n s → n ≤ 1) ∧
      ∀ p envelope w token outcome touched s,
        ingestionModel.Through (emptyIngestionDb now) p
          (.claimAndProcessEnvelope envelope w token)
          (claimAndProcessEnvelope none envelope w token) (.ret outcome) touched s →
        outcome.Refused → ¬ touched := by
  refine ⟨fun e g payload => CommandEnvelope.canonicalPayload_injective,
    fun secretResolver signed t skew e => CommandEnvelope.signed_of_accepted,
    fun s s' a j r r' h hs hr hr' => commitsClaim_of_changed h hs hr hr', fun commandId n s h => ?_,
    fun organizationId idempotencyKey n s h => ?_,
    fun p envelope w token outcome touched s h hrefused htouched => ?_⟩
  · exact counted_commitsClaim (P := fun log => log.commandId = commandId)
      (fun b c hb hc hdiff => hdiff.1 (hb.trans hc.symm)) h
  · exact counted_commitsClaim
      (fun b c hb hc hdiff => hdiff.2 ⟨hb.1.trans hc.1.symm, hb.2.trans hc.2.symm⟩) h
  · exact refused_untouched h hrefused htouched

/-! ### An envelope that is accepted -/

/-- Some minutes past noon of a day. -/
def noon (minutes : Fin 60) : AwareDatetime where
  wall := 63889473600000005 + minutes.val * 60000000
  offset := 0
  wall_lt := by
    have := minutes.isLt
    simp only [endOfTime, dayMicros]
    omega
  offset_lt := by decide

/-- An envelope with separators in its idempotency key, before it is signed. -/
def unsignedEnvelope : CommandEnvelope where
  jobId := 7
  commandId := 8
  issuedAt := noon 0
  expiresAt := noon 15
  idempotencyKey := .ofString "7:x|1"

/-- The canonical payload of the envelope. -/
def samplePayload : List Char :=
  ("5:2.0.0|36:00000000-0000-0000-0000-000000000008|36:00000000-0000-0000-0000-000000000007|" ++
    "21:PROCESS_INGESTION_JOB|27:2025-07-30T12:00:00.000005Z|27:2025-07-30T12:15:00.000005Z|" ++
    "5:7:x|1|6:key-v1").toList

/-- HMAC-SHA256 of the payload under the key, and nothing else. -/
def sampleHmac (key bytes : List ℕ) : List Char :=
  if key = utf8Bytes "hmac-secret".toList ∧ bytes = utf8Bytes samplePayload then
    "03e9784d3959b2f09e24497dfa29a2fb597631347e58921ef06c549afc56439f".toList
  else []

/-- The envelope as it is presented. -/
def signedEnvelope : CommandEnvelope :=
  { unsignedEnvelope with
    signature := .ofString "03e9784d3959b2f09e24497dfa29a2fb597631347e58921ef06c549afc56439f" }

/-- The signed envelope is accepted a minute later, and carries what was signed. -/
theorem command_executedOnce_noon : ∃ g secret,
    (g = unsignedEnvelope ∧ secret = PyStr.ofString "hmac-secret") ∧
      signedEnvelope.SameFields g := by
  have hmessage : unsignedEnvelope.message = .ok (utf8Bytes samplePayload) := by decide +kernel
  refine (command_executedOnce sampleHmac 0).2.1 (fun _ => .ofString "hmac-secret")
    (fun g secret => g = unsignedEnvelope ∧ secret = .ofString "hmac-secret") (noon 1) 300
    signedEnvelope ?_ (by decide +kernel)
  intro key bytes hkey hsignature
  by_cases h : key = utf8Bytes "hmac-secret".toList ∧ bytes = utf8Bytes samplePayload
  · exact ⟨_, _, ⟨rfl, rfl⟩, hkey, by rw [h.2]; exact hmessage⟩
  · rw [sampleHmac, if_neg h] at hsignature
    exact absurd hsignature (by decide +kernel)

end FinanceIntelligence
