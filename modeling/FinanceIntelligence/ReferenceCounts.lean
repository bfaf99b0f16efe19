import FinanceIntelligence.UploadRuns

/-!
# Reference counts

A finalization and a release change the count of an object together with its versions, under the
lock on the object. `reconcile` counts the versions before it has that lock, and then writes what
it counted: `recount_deletable` is a run in which the bytes of a live version may be deleted. The
counts are exact in all runs in which the versions of an object stay while it is recounted
(`referenceCounts_exact`).

So the condition is on one step only, the one that writes the count: no other call can make a
count wrong.
-/

namespace FinanceIntelligence

open UploadProg ReferenceService
open UploadStmt (recounted)

variable {B : Type} {cfg : UploadConfig B} {d₀ : UploadDb B}

/-- The count of every object is the number of versions that refer to it. -/
def CountsExact (d : UploadDb B) : Prop :=
  ∀ o ∈ d.objects, o.referenceCount = d.versionCount o.id

/-- Exact counts that follow the versions stay exact. -/
theorem CountsExact.follow {d d' : UploadDb B} (h : CountsExact d) (hf : CountsFollow d d') :
    CountsExact d' := by
  intro o' ho'
  rcases hf o' ho' with hnew | ⟨o, ho, hid, hcount⟩
  · exact hnew
  · have hexact := h o ho
    rw [hid] at hexact
    omega

/-- The versions of an object are those of its organization. -/
theorem activeCount_eq {d : UploadDb B} (hd : UploadsWell cfg.sha256 d) {o : StoredObject}
    (ho : o ∈ d.objects) : d.activeCount o.organizationId o.id = d.versionCount o.id := by
  refine List.countP_congr fun v hv => ?_
  simp only [Bool.and_eq_true, beq_iff_eq]
  refine ⟨fun h => h.1, fun hid => ⟨hid, ?_⟩⟩
  obtain ⟨o', ho', hid', horg'⟩ := hd.refers v hv
  rw [← horg', hd.eq_of_id ho' ho (hid'.trans hid)]

/-! ## A recount -/

/-- The statement sets the count of an object. -/
def SetsCount (org id : Uuid) (n : ℕ) (s : UploadStmt) : Prop :=
  ∃ o : StoredObject, o.id = id ∧ o.organizationId = org ∧ s = .setReferenceCount o n

/-- What is left of a recount when the versions are counted. -/
def afterCount (org id : Uuid) (n : ℕ) : UploadProg B Unit :=
  (lockObject org id).bind fun found =>
    match found with
    | none => .raise (.http 404 "STORED_OBJECT_NOT_FOUND")
    | some obj => (execute (.setReferenceCount obj n)).bind fun _ => commit

/-- What is left of a recount before the versions are counted. -/
def beforeCount (org id : Uuid) : UploadProg B Unit :=
  .read fun d => afterCount org id (d.activeCount org id)

theorem reconcile_eq (org id : Uuid) : (uploadModel cfg).body (.reconcile org id) =
    .note .counting (.ask fun i => if i.fails then .raise .outside else beforeCount org id) := by
  simp only [uploadModel, reconcile, attempt, Prog.bind_eq, Prog.bind, Prog.pure_eq]
  congr 2
  funext i
  split
  · rfl
  · simp only [Prog.bind, beforeCount, afterCount, Prog.bind_assoc]
    congr 1
    funext d
    congr 1
    funext found
    cases found with
    | none => rfl
    | some obj => rw [Prog.bind_assoc]; rfl

/-- The object that is locked is the one that was asked for. -/
theorem mayReturn_lockObject {org id : Uuid} {o : StoredObject}
    (h : (lockObject org id : UploadProg B _).MayReturn (some o)) :
    o.id = id ∧ o.organizationId = org := by
  obtain ⟨i, h⟩ := h
  by_cases hi : i.fails = true
  · simp [hi, Prog.bind, Prog.MayReturn] at h
  · simp only [hi, Bool.false_eq_true, if_false, Prog.bind, Prog.MayReturn] at h
    obtain ⟨d, h⟩ := h
    cases hfound : d.object org id with
    | none =>
      simp only [hfound, Prog.MayReturn] at h
      cases h
    | some o₁ =>
      simp only [hfound, Prog.MayReturn] at h
      obtain ⟨b, h⟩ := h
      cases b with
      | false =>
        simp only [Bool.false_eq_true, if_false, Prog.MayReturn] at h
        cases h
      | true =>
        simp only [if_true, Prog.MayReturn] at h
        obtain ⟨d', h⟩ := h
        exact (UploadDb.object_eq_some h).2

/-- A recount writes what it has counted, to the object that it was asked for. -/
theorem afterCount_writes (org id : Uuid) (n : ℕ) :
    (afterCount org id n : UploadProg B Unit).WritesOnly (SetsCount org id n) := by
  rw [afterCount, Prog.writesOnly_bind]
  constructor
  · intro i
    by_cases hi : i.fails = true
    · simp [hi, Prog.bind, Prog.WritesOnly]
    · simp only [hi, Bool.false_eq_true, if_false, Prog.bind, Prog.WritesOnly]
      intro d
      split
      · trivial
      · intro b
        cases b <;> simp [Prog.WritesOnly]
  · intro found hfound
    cases found with
    | none => trivial
    | some obj =>
      obtain ⟨hid, horg⟩ := mayReturn_lockObject hfound
      intro i
      by_cases hi : i.fails = true
      · simp [hi, Prog.bind, Prog.WritesOnly]
      · simp only [hi, Bool.false_eq_true, if_false, Prog.bind, Prog.WritesOnly]
        refine ⟨⟨obj, hid, horg, rfl⟩, fun b => ?_⟩
        cases b
        · trivial
        · intro j
          by_cases hj : j.fails = true
          · simp [hj, Prog.bind, Prog.WritesOnly]
          · simp only [hj, Bool.false_eq_true, if_false, Prog.bind, Prog.WritesOnly]
            intro e
            cases e <;> trivial

/-- Where a recount is: what is left of it, what it has run, and its note. -/
inductive RecountAt (org id : Uuid) (d : UploadDb B) :
    UploadProg B Unit → List UploadStmt → Option UploadMark → Prop where
  /-- it has not begun -/
  | begins (prog : UploadProg B Unit) (h : prog =
      .note .counting (.ask fun i => if i.fails then .raise .outside else beforeCount org id)) :
      RecountAt org id d prog [] none
  /-- it is about to ask for the versions -/
  | asks : RecountAt org id d
      (.ask fun i => if i.fails then .raise .outside else beforeCount org id) [] (some .counting)
  /-- it is about to count them -/
  | counts : RecountAt org id d (beforeCount org id) [] (some .counting)
  /-- it has counted them, and as long as it goes on it has counted right -/
  | counted (n : ℕ) (prog : UploadProg B Unit) (pending : List UploadStmt)
      (hn : prog.Goes → n = d.activeCount org id) (hprog : prog.WritesOnly (SetsCount org id n))
      (hpending : ∀ s ∈ pending, SetsCount org id n s) :
      RecountAt org id d prog pending (some .counting)

/-- It stays there while the versions do. -/
theorem RecountAt.mono {org id : Uuid} {d d' : UploadDb B} {prog : UploadProg B Unit}
    {pending : List UploadStmt} {mark : Option UploadMark}
    (h : RecountAt org id d prog pending mark)
    (hd : mark.isSome = true → prog.Goes → d'.activeCount org id = d.activeCount org id) :
    RecountAt org id d' prog pending mark := by
  cases h with
  | begins _ h => exact .begins _ h
  | asks => exact .asks
  | counts => exact .counts
  | counted n _ _ hn hprog hpending =>
    exact .counted n _ _ (fun hgoes => (hn hgoes).trans (hd rfl hgoes).symm) hprog hpending

/-- An object after statements that set counts. -/
theorem mem_view_setsCount {org id : Uuid} {n : ℕ} {l : List UploadStmt}
    (hl : ∀ s ∈ l, SetsCount org id n s) {d : UploadDb B} {o' : StoredObject}
    (ho' : o' ∈ ((uploadSchema B).view l d).objects) : ∃ o ∈ d.objects, o.id = o'.id ∧
      (o'.referenceCount = o.referenceCount ∨ o.id = id ∧ o'.referenceCount = n) := by
  induction l generalizing d with
  | nil => exact ⟨o', ho', rfl, .inl rfl⟩
  | cons s l ih =>
    obtain ⟨x, hid, -, rfl⟩ := hl s List.mem_cons_self
    rw [Schema.view_cons] at ho'
    obtain ⟨o₁, ho₁, hoid, hcount⟩ := ih (fun s hs => hl s (List.mem_cons_of_mem _ hs)) ho'
    obtain ⟨o, ho, rfl⟩ := List.mem_map.mp ho₁
    refine ⟨o, ho, ((same_recounted x n o).id).symm.trans hoid, ?_⟩
    rw [(same_recounted x n o).id] at hcount
    rcases hcount with hcount | hcount
    · by_cases hox : o.id = x.id
      · rw [if_pos hox] at hcount
        exact .inr ⟨hox.trans hid, hcount⟩
      · rw [if_neg hox] at hcount
        exact .inl hcount
    · exact .inr hcount

/-- **A commit of a recount that has counted right** leaves the counts exact. -/
theorem CountsExact.recount {org id : Uuid} {n : ℕ} {l : List UploadStmt} {d d' : UploadDb B}
    (h : CountsExact d) (hd : UploadsWell cfg.sha256 d) (hn : n = d.activeCount org id)
    (hl : ∀ s ∈ l, SetsCount org id n s) (hview : d' = (uploadSchema B).view l d)
    (hversions : d'.versions = d.versions)
    (hobject : ∃ o ∈ d.objects, o.id = id ∧ o.organizationId = org) : CountsExact d' := by
  intro o' ho'
  have hcount : d'.versionCount o'.id = d.versionCount o'.id := by
    rw [UploadDb.versionCount, UploadDb.versionCount, hversions]
  rw [hview] at ho'
  obtain ⟨o, ho, hoid, hsame | ⟨hid, hset⟩⟩ := mem_view_setsCount hl ho'
  · rw [hcount, hsame, ← hoid]
    exact h o ho
  · obtain ⟨x, hx, hxid, hxorg⟩ := hobject
    rw [hcount, hset, hn, ← hoid, hid, ← hxid, ← hxorg]
    exact activeCount_eq hd hx

/-! ## Runs -/

/-- The process is recounting an object: it has begun to, and goes on. -/
structure Recounting (org id : Uuid)
    (pr : Proc UploadRow UploadStmt UploadAnswer UploadMark (UploadDb B) UploadExc UploadCall) :
    Prop where
  call : pr.call = .reconcile org id
  /-- it has begun -/
  mark : pr.mark.isSome = true
  goes : pr.prog.Goes

/-- No commit adds or removes a version of an object that another process is recounting. -/
def RecountsApart (a : Act UploadAnswer UploadCall Empty) (s : UploadSys B) : Prop :=
  ∀ p i pr, a = .exec p i → s.proc p = some pr → pr.prog.isCommit = true →
    ∀ q pr' org id, q ≠ p → s.proc q = some pr' → Recounting org id pr' →
      ((uploadSchema B).view pr.pending s.db).activeCount org id = s.db.activeCount org id

/-- A recount takes a step. -/
theorem RecountAt.exec {org id : Uuid} {p : ℕ} {i : UploadAnswer} {s s' : UploadSys B}
    {pr pr' : Proc UploadRow UploadStmt UploadAnswer UploadMark (UploadDb B) UploadExc UploadCall}
    (h : RecountAt org id s.db pr.prog pr.pending pr.mark)
    (hexec : (uploadModel cfg).exec p i s pr = some s') (hp : s'.proc p = some pr')
    (hcount : s'.db.activeCount org id = s.db.activeCount org id) :
    RecountAt org id s'.db pr'.prog pr'.pending pr'.mark := by
  obtain ⟨c, prog, pending, mark⟩ := pr
  cases h with
  | begins _ h =>
    dsimp only at h
    subst h
    obtain rfl := Option.some.inj hexec
    rw [Sys.proc_put, Function.update_self] at hp
    cases hp
    exact .asks
  | asks =>
    obtain rfl := Option.some.inj hexec
    rw [Sys.proc_put, Function.update_self] at hp
    cases hp
    dsimp only
    by_cases hi : i.fails = true
    · rw [if_pos hi]
      exact .counted 0 _ _ False.elim trivial nofun
    · rw [if_neg hi]
      exact .counts
  | counts =>
    obtain rfl := Option.some.inj hexec
    rw [Sys.proc_put, Function.update_self] at hp
    cases hp
    exact .counted _ _ _ (fun _ => rfl) (afterCount_writes org id _) nofun
  | counted n _ _ hn hprog hpending =>
    have hleads := Model.leads_of_exec hexec hp
    have hmark : pr'.mark = some .counting := by
      rcases Model.exec_mark hexec hp with hmark | ⟨n, k, -, hmark⟩
      · exact hmark
      · exact hmark
    rw [hmark]
    refine .counted n _ _ (fun _ => ?_) (hprog.leads hleads.prog) fun a ha => ?_
    · rw [hcount]
      exact hn hleads.prog.goes
    · rcases hleads.pending with hl | hl | ⟨b, k, hb, hl⟩ <;> rw [hl] at ha
      · cases ha
      · exact hpending a ha
      · dsimp only at hb
        rw [hb] at hprog
        rcases List.mem_append.mp ha with ha | ha
        · exact hpending a ha
        · exact List.mem_singleton.mp ha ▸ hprog.1

/-- What holds in every state of the runs. -/
structure CountsInv (s : UploadSys B) : Prop where
  /-- the counts are exact -/
  exact : CountsExact s.db
  recounts : ∀ p pr org id, s.proc p = some pr → pr.call = .reconcile org id →
    RecountAt org id s.db pr.prog pr.pending pr.mark

/-- A step keeps it. -/
theorem CountsInv.step {s s' : UploadSys B} (h : CountsInv s)
    (hsafe : (uploadDiscipline cfg).Safe s) {a : Act UploadAnswer UploadCall Empty}
    (hok : RecountsApart a s)
    (hs : (uploadModel cfg).step a s = some s') : CountsInv s' := by
  -- what the step does to the contents
  have hdb : s'.db = s.db ∨ ∃ p i pr, a = .exec p i ∧ s.proc p = some pr ∧
      pr.prog.isCommit = true ∧ s'.db = (uploadSchema B).view pr.pending s.db ∧
        UploadStep pr.call s.db s'.db := by
    rcases hsafe.step_db hs with hdb | ⟨e, -, -⟩ | ⟨pr, ⟨p, i, ha, hp, hc⟩, hview, hguar⟩
    · exact .inl hdb
    · exact e.elim
    · exact .inr ⟨p, i, pr, ha, hp, hc, hview, hguar⟩
  have hexact : CountsExact s'.db := by
    rcases hdb with hdb | ⟨p, i, pr, rfl, hp, hc, hview, hguar⟩
    · rw [hdb]
      exact h.exact
    · have hcounts := hguar.counts
      cases hcall : pr.call with
      | finalizeUpload org session user =>
        rw [hcall] at hcounts
        exact h.exact.follow hcounts
      | releaseVersion org version =>
        rw [hcall] at hcounts
        exact h.exact.follow hcounts
      | reconcile org id =>
        rw [hcall] at hcounts
        obtain ⟨hversions, hobject⟩ := hcounts
        have hat := h.recounts p pr org id hp hcall
        obtain ⟨c, prog, pending, mark⟩ := pr
        cases hat with
        | begins _ hprog =>
          dsimp only at hprog
          rw [hprog] at hc
          cases hc
        | asks => cases hc
        | counts => cases hc
        | counted n _ _ hn hprog hpending =>
          have hgoes : Prog.Goes prog := by
            cases prog <;> trivial
          exact h.exact.recount hsafe.inv (hn hgoes) hpending hview hversions hobject
  refine ⟨hexact, fun q pr' org id hq hcall => ?_⟩
  -- a recount that does not take the step finds the same versions
  have hstays : s.proc q = some pr' → (∀ i, a ≠ .exec q i) →
      RecountAt org id s'.db pr'.prog pr'.pending pr'.mark := by
    intro hq hne
    refine (h.recounts q pr' org id hq hcall).mono fun hmark hgoes => ?_
    rcases hdb with hdb | ⟨p, i, pr, rfl, hp, hc, hview, -⟩
    · rw [hdb]
    · rw [hview]
      refine hok p i pr rfl hp hc q pr' org id ?_ hq ⟨hcall, hmark, hgoes⟩
      rintro rfl
      exact hne i rfl
  by_cases hown : ∃ i, a = .exec q i
  · obtain ⟨i, rfl⟩ := hown
    obtain ⟨pr, hp, hexec⟩ := Option.bind_eq_some_iff.mp hs
    have hleads := Model.leads_of_exec hexec hq
    have hcall' : pr.call = .reconcile org id := hleads.call.symm.trans hcall
    refine (h.recounts q pr org id hp hcall').exec hexec hq ?_
    -- it leaves the versions alone itself
    rcases hdb with hdb | ⟨p, j, pr₁, ha, hp₁, -, -, hguar⟩
    · rw [hdb]
    · cases ha
      obtain rfl := Option.some.inj (hp.symm.trans hp₁)
      have hcounts := hguar.counts
      rw [hcall'] at hcounts
      rw [UploadDb.activeCount, UploadDb.activeCount, hcounts.1]
  · have hne : ∀ i, a ≠ .exec q i := fun i ha => hown ⟨i, ha⟩
    rcases hsafe.step_proc hs hq with hold | ⟨c, ha, rfl⟩ | ⟨i, pr, ha, -, -⟩
    · exact hstays hold hne
    · dsimp only at hcall ⊢
      rw [hcall]
      exact .begins _ (reconcile_eq org id)
    · exact absurd ha (hne i)

/-- **Reference counts are exact** in every run in which no version of an object is added or
removed while the object is recounted; no object with a version is eligible for deletion. -/
theorem referenceCounts_exact (h₀ : UploadsWell cfg.sha256 d₀) (hexact : CountsExact d₀)
    {s : UploadSys B} (h : (uploadModel cfg).ReachableBy RecountsApart d₀ s) :
    CountsExact s.db ∧ ∀ org id, isEligibleForDeletion s.db org id = true →
      s.db.versionCount id = 0 := by
  have hinv : CountsInv s := h.invariant (P := CountsInv) ⟨hexact, nofun⟩
    fun hreach hinv hok hs => hinv.step (upload_safe h₀ hreach.reachable) hok hs
  refine ⟨hinv.exact, fun org id heligible => ?_⟩
  obtain ⟨o, ho, hfree⟩ := (Option.any_eq_true _ _).mp heligible
  simp only [Bool.and_eq_true, beq_iff_eq] at hfree
  obtain ⟨hmem, hid, -⟩ := UploadDb.object_eq_some ho
  rw [← hid, ← hinv.exact o hmem, hfree.1]

/-- A process alone adds no version to what it is recounting itself. -/
theorem reachableBy_recountsApart {p : ℕ} {s : UploadSys B}
    (h : (uploadModel cfg).ReachableBy (fun a _ => Model.IsOf p a = true) d₀ s) :
    (uploadModel cfg).ReachableBy RecountsApart d₀ s := by
  induction h with
  | start => exact .start
  | @step s s' a h ha hs ih =>
    refine .step ih ?_ hs
    rintro q i pr rfl hq hc q' pr' org id hne hq' -
    have hqp : q = p := by simpa [Model.IsOf] using ha
    rw [h.alone q' (hqp ▸ hne)] at hq'
    cases hq'

/-! ### An object whose versions were all released -/

/-- The small file is an object without versions, whose retention is over, and was uploaded
again. -/
def releasedFile : UploadDb String where
  sessions i := if i = 2 then some (statementSession 2 "1/2.bin") else none
  objects := [⟨5, 1, "1/1.bin", 30, statementHash, "text/csv", "EXPIRED", 0⟩]
  documents := []
  versions := []
  jobs := []
  storage org key :=
    if org = 1 ∧ (key = "1/1.bin" ∨ key = "1/2.bin") then some statementFile else none

theorem releasedFile_sessions {i : Uuid} {row : UploadSession}
    (h : releasedFile.sessions i = some row) : i = 2 ∧ row = statementSession 2 "1/2.bin" := by
  simp only [releasedFile] at h
  split at h
  · exact ⟨‹_›, (Option.some.inj h).symm⟩
  · cases h

theorem releasedFile_well : UploadsWell statementConfig.sha256 releasedFile where
  keyed i row hrow := by
    obtain ⟨rfl, rfl⟩ := releasedFile_sessions hrow
    rfl
  ownKey i j row row' k hrow hrow' _ _ := by
    rw [(releasedFile_sessions hrow).1, (releasedFile_sessions hrow').1]
  uniqueHash := List.pairwise_singleton _ _
  uniqueId := List.pairwise_singleton _ _
  stored o ho := by
    obtain rfl := List.mem_singleton.mp ho
    exact ⟨statementFile, by decide, by decide⟩
  finalized o ho i row hrow hk := by
    obtain rfl := List.mem_singleton.mp ho
    obtain ⟨rfl, rfl⟩ := releasedFile_sessions hrow
    exact absurd hk (by decide)
  uniqueVersion := .nil
  refers := nofun

theorem releasedFile_exact : CountsExact releasedFile := by
  intro o ho
  obtain rfl := List.mem_singleton.mp ho
  rfl

/-- The upload is finalized, and then the object recounted. -/
theorem referenceCounts_exact_releasedFile : ∃ s : UploadSys String,
    s.db.objects.map (·.referenceCount) = [1] ∧ s.db.versions.length = 1 ∧ CountsExact s.db := by
  have hrun : (((uploadModel statementConfig).runBy (fun a _ => Model.IsOf 0 a)
      (Model.serve 0 (.finalizeUpload 1 2 9) 40 { uuid := 30, now := 50 } ++
        Model.serve 0 (.reconcile 1 5) 12 { uuid := 31, now := 60 })
      (Model.idle releasedFile)).map fun s =>
        decide (s.db.objects.map (·.referenceCount) = [1] ∧ s.db.versions.length = 1)) =
      some true := by decide
  obtain ⟨s, hs, h⟩ := Option.map_eq_some_iff.mp hrun
  obtain ⟨hcounts, hversions⟩ := of_decide_eq_true h
  have hreach : (uploadModel statementConfig).ReachableBy RecountsApart releasedFile s :=
    reachableBy_recountsApart (p := 0)
      (Model.ReachableBy.later .start (Model.LaterBy.of_runBy (fun _ _ ha => ha) hs))
  exact ⟨s, hcounts, hversions,
    (referenceCounts_exact releasedFile_well releasedFile_exact hreach).1⟩

/-- **A live version whose bytes may be deleted**: the versions are counted, the upload is
finalized, and then the count is written. -/
theorem recount_deletable : ∃ s : UploadSys String,
    (uploadModel statementConfig).Reachable releasedFile s ∧
    isEligibleForDeletion s.db 1 5 = true ∧ s.db.versionCount 5 = 1 := by
  have hrun : (((uploadModel statementConfig).run
      (Model.serve 0 (.reconcile 1 5) 3 { uuid := 31, now := 50 } ++
        Model.serve 1 (.finalizeUpload 1 2 9) 40 { uuid := 30, now := 50 } ++
        List.replicate 9 (.exec 0 { uuid := 31, now := 50 }))
      (Model.idle releasedFile)).map fun s =>
        decide (isEligibleForDeletion s.db 1 5 = true ∧ s.db.versionCount 5 = 1)) =
      some true := by decide
  obtain ⟨s, hs, h⟩ := Option.map_eq_some_iff.mp hrun
  exact ⟨s, Model.ReachableBy.later .start (Model.LaterBy.of_runBy (fun _ _ _ => trivial) hs),
    of_decide_eq_true h⟩

/-- Reference counts are not exact in every run. -/
theorem referenceCounts_notExact : ¬ ∀ (B : Type) (cfg : UploadConfig B) (d₀ : UploadDb B)
    (s : UploadSys B), UploadsWell cfg.sha256 d₀ → CountsExact d₀ →
    (uploadModel cfg).Reachable d₀ s → CountsExact s.db ∧
      ∀ org id, isEligibleForDeletion s.db org id = true → s.db.versionCount id = 0 := by
  intro h
  obtain ⟨s, hreach, heligible, hcount⟩ := recount_deletable
  have hzero := (h String statementConfig releasedFile s releasedFile_well releasedFile_exact
    hreach).2 1 5 heligible
  rw [hzero] at hcount
  cases hcount

end FinanceIntelligence
