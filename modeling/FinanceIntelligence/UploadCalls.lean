import FinanceIntelligence.UploadSafe

/-!
# What an upload call knows

A call knows what it has found under the locks that it holds (`Knows`): the others cannot change
it. Each rule says what an instruction adds; with them every call keeps the discipline
(`upload_sound`).
-/

namespace FinanceIntelligence

open UploadProg UploadsRouter ReferenceService StateMachineService
open UploadStmt (upserted)

variable {B : Type}

/-- What a call knows inside its transaction: it holds the locks on `rows`, `K` holds of the
contents as long as it does, and it has run the statements `l`. -/
structure Knows (rows : List UploadRow) (K : UploadDb B → Prop) (l : List UploadStmt)
    (σ : Cfg UploadRow UploadStmt UploadMark (UploadDb B)) : Prop where
  /-- the others keep it -/
  kept : ∀ d d', (∀ r ∈ rows, r.Agree d d') → UploadsEvolve d d' → K d → K d'
  /-- the locks -/
  held : ∀ r ∈ rows, r ∈ σ.held
  /-- what was found -/
  holds : K σ.db
  /-- the statements -/
  pending : σ.pending = l

section Rules

variable {cfg : UploadConfig B} {c : UploadCall} {α : Type}
  {σ : Cfg UploadRow UploadStmt UploadMark (UploadDb B)} {rows : List UploadRow}
  {K K' : UploadDb B → Prop} {l : List UploadStmt}

/-- A postcondition; what is raised does not matter. -/
abbrev Uploads (cfg : UploadConfig B) (c : UploadCall) (p : UploadProg B α)
    (Q : α → Cfg UploadRow UploadStmt UploadMark (UploadDb B) → Prop)
    (σ : Cfg UploadRow UploadStmt UploadMark (UploadDb B)) : Prop :=
  (uploadDiscipline cfg).wp c p Q (fun _ _ => True) σ

/-- Nothing is known when a transaction begins. -/
theorem Knows.start (h : σ.pending = []) : Knows [] (fun _ => True) [] σ :=
  ⟨fun _ _ _ _ _ => trivial, nofun, trivial, h⟩

/-- The others go on. -/
theorem Knows.rely (h : Knows rows K l σ) {d : UploadDb B}
    (hd : (uploadDiscipline cfg).rely σ d) {held : Set UploadRow} (hheld : σ.held ⊆ held) :
    Knows rows K l { σ with held := held, db := d } where
  kept := h.kept
  held r hr := hheld (h.held r hr)
  holds := h.kept _ _ (fun r hr => hd.agree r (h.held r hr)) hd.evolves h.holds
  pending := h.pending

/-- Something more is found. -/
theorem Knows.and (h : Knows rows K l σ)
    (hkept : ∀ d d', (∀ r ∈ rows, r.Agree d d') → UploadsEvolve d d' → K d → K' d → K' d')
    (hK' : K' σ.db) : Knows rows (fun d => K d ∧ K' d) l σ where
  kept d d' hagree hevolves hd := ⟨h.kept d d' hagree hevolves hd.1,
    hkept d d' hagree hevolves hd.1 hd.2⟩
  held := h.held
  holds := ⟨h.holds, hK'⟩
  pending := h.pending

/-- One more lock. -/
theorem Knows.lock (h : Knows rows K l σ) {r : UploadRow} (hr : r ∈ σ.held) :
    Knows (r :: rows) K l σ where
  kept d d' hagree := h.kept d d' fun r' hr' => hagree r' (List.mem_cons_of_mem _ hr')
  held r' hr' := by
    rcases List.mem_cons.mp hr' with rfl | hr'
    · exact hr
    · exact h.held r' hr'
  holds := h.holds
  pending := h.pending

theorem uploads_attempt {Q : Unit → Cfg UploadRow UploadStmt UploadMark (UploadDb B) → Prop}
    (hQ : Q () σ) : Uploads cfg c attempt Q σ := by
  rintro ⟨_, _, fails⟩
  cases fails with
  | true => trivial
  | false => exact hQ

theorem uploads_uuid4 {Q : Uuid → Cfg UploadRow UploadStmt UploadMark (UploadDb B) → Prop}
    (hQ : ∀ id, Q id σ) : Uploads cfg c uuid4 Q σ := fun i => hQ i.uuid

theorem uploads_now {Q : ℕ → Cfg UploadRow UploadStmt UploadMark (UploadDb B) → Prop}
    (hQ : ∀ t, Q t σ) : Uploads cfg c now Q σ := fun i => hQ i.now

/-- What is caught does not matter to a handler that can run at any time. -/
theorem uploads_tryCatch {p : UploadProg B α} {h : UploadExc → UploadProg B α}
    {Q : α → Cfg UploadRow UploadStmt UploadMark (UploadDb B) → Prop} (hp : Uploads cfg c p Q σ)
    (hh : ∀ x σ, Uploads cfg c (h x) Q σ) : Uploads cfg c (p.tryCatch h) Q σ := by
  rw [Uploads, Discipline.wp_tryCatch]
  exact Discipline.wp_mono (fun _ _ hQ => hQ) (fun x σ _ => hh x σ) hp

/-- Without a tenant there is no row to load. -/
theorem sessionUnder_none (d : UploadDb B) (id : Uuid) : d.sessionUnder none id = none := by
  rw [UploadDb.sessionUnder]
  cases d.sessions id <;> rfl

/-- The handler cannot read the key, and deletes nothing. -/
theorem uploads_compensate {session : UploadSession} {org : Uuid} {isDeduplicated : Bool}
    {err : UploadExc} {Q : Unit → Cfg UploadRow UploadStmt UploadMark (UploadDb B) → Prop} :
    Uploads cfg c (compensate cfg session org isDeduplicated err) Q σ := by
  intro d hd
  cases isDeduplicated with
  | true => trivial
  | false =>
    simp only [expiredTemporaryObjectKey, Bool.false_eq_true, if_false, Prog.bind_eq]
    split
    · intro d' _
      dsimp only
      rw [sessionUnder_none]
      trivial
    · trivial

theorem uploads_execute {s : UploadStmt}
    {Q : Unit → Cfg UploadRow UploadStmt UploadMark (UploadDb B) → Prop} (h : Knows rows K l σ)
    (hQ : ∀ σ', Knows (s.target.toList ++ rows) K (l ++ [s]) σ' → Q () σ') :
    Uploads cfg c (execute s) Q σ := by
  rw [execute, Uploads, Discipline.wp_bind]
  refine uploads_attempt fun d hd => ⟨fun _ => ?_, fun _ => ⟨id, trivial⟩⟩
  have h' : Knows rows K l { σ with held := σ.held ∪ {r | r ∈ s.target.toList}, db := d } :=
    h.rely hd Set.subset_union_left
  refine hQ _ ⟨fun d d' hagree => h.kept d d' fun r hr => hagree r (List.mem_append_right _ hr),
    fun r hr => ?_, h'.holds, by rw [h.pending]⟩
  rcases List.mem_append.mp hr with hr | hr
  · exact Set.mem_union_right _ hr
  · exact h'.held r hr

theorem uploads_commit {Q : Unit → Cfg UploadRow UploadStmt UploadMark (UploadDb B) → Prop}
    (h : Knows rows K l σ)
    (hlawful : ∀ d d', UploadsWell cfg.sha256 d → K d → (uploadSchema B).replay l d = .ok d' →
      LawfulCommit cfg c {r | r ∈ rows} d d')
    (hQ : ∀ d d' σ', UploadsWell cfg.sha256 d → K d → (uploadSchema B).replay l d = .ok d' →
      σ'.db = d' → σ'.pending = [] → Q () σ') : Uploads cfg c commit Q σ := by
  rw [commit, Uploads, Discipline.wp_bind]
  refine uploads_attempt fun d hd => ?_
  have h' := h.rely hd subset_rfl
  refine ⟨fun d' hreplay => ?_, fun _ _ => ⟨id, trivial⟩⟩
  rw [h.pending] at hreplay
  obtain ⟨hagree, hwell, hstep⟩ := hlawful d d' hd.inv h'.holds hreplay
  refine ⟨fun r hr => hagree r fun hmem => hr (h.held r hmem), hwell, hstep, ?_⟩
  exact hQ d d' _ hd.inv h'.holds hreplay rfl rfl

/-- A session is locked as it is, or there is none. -/
theorem uploads_lockSession {org i : Uuid}
    {Q : Option UploadSession → Cfg UploadRow UploadStmt UploadMark (UploadDb B) → Prop}
    (h : Knows rows K l σ) (hl : ∀ d, ((uploadSchema B).view l d).sessions = d.sessions)
    (hnone : ∀ σ', Q none σ')
    (hQ : ∀ row σ', row.id = i → row.organizationId = org →
      Knows (.session i :: rows) (fun d => K d ∧ d.sessions i = some row) l σ' → Q (some row) σ') :
    Uploads cfg c (lockSession org i) Q σ := by
  rw [lockSession, Uploads, Discipline.wp_bind]
  refine uploads_attempt fun d hd => ⟨fun hq => ?_, fun _ => hnone _⟩
  change (((uploadSchema B).view σ.pending d).sessions i).any _ = true at hq
  rw [h.pending, hl] at hq
  obtain ⟨row, hrow, horg⟩ := (Option.any_eq_true _ _).mp hq
  intro d' hd'
  have hrow' : d'.sessions i = some row :=
    (hd'.agree (.session i) (Set.mem_insert _ _)).1.trans hrow
  have hview : ((uploadSchema B).view σ.pending d').sessions i = some row := by
    rw [h.pending, hl, hrow']
  change Q (((uploadSchema B).view σ.pending d').sessions i) _
  rw [hview]
  have hlock := ((h.rely hd (Set.subset_insert (UploadRow.session i) _)).rely hd' subset_rfl).lock
    (r := .session i) (Set.mem_insert _ _)
  refine hQ row _ (hd'.inv.keyed i row hrow') (by simpa using horg) (hlock.and ?_ hrow')
  exact fun d₁ d₂ hagree _ _ hd₁ => (hagree _ List.mem_cons_self).1.trans hd₁

/-- The object under a hash is locked as it is, or there is none. -/
theorem uploads_lockObjectOf {u : StoredObject}
    {Q : Option StoredObject → Cfg UploadRow UploadStmt UploadMark (UploadDb B) → Prop}
    (h : Knows rows K [.upsertObject u] σ) (hnone : ∀ σ', Q none σ')
    (hQ : ∀ storedObject σ', Knows (.object u.organizationId u.serverComputedSha256 :: rows)
      (fun d => K d ∧ Acquired d.objects u storedObject) [.upsertObject u] σ' →
        Q (some storedObject) σ') :
    Uploads cfg c (lockObjectOf u.organizationId u.serverComputedSha256) Q σ := by
  rw [lockObjectOf, Uploads, Discipline.wp_bind]
  refine uploads_attempt fun d hd => ⟨fun hq => ?_, fun _ => hnone _⟩
  intro d' hd'
  have hview : (uploadSchema B).view σ.pending d' = (uploadSchema B).view [.upsertObject u] d' := by
    rw [h.pending]
  change Q (((uploadSchema B).view σ.pending d').objectOf _ _) _
  rw [hview]
  have hlock := ((h.rely hd (Set.subset_insert (UploadRow.object u.organizationId
    u.serverComputedSha256) _)).rely hd' subset_rfl).lock
      (r := .object u.organizationId u.serverComputedSha256) (Set.mem_insert _ _)
  cases hfound : ((uploadSchema B).view [.upsertObject u] d').objectOf u.organizationId
      u.serverComputedSha256 with
  | none => exact hnone _
  | some storedObject =>
    obtain ⟨hmem, horg, hsha⟩ := UploadDb.objectOf_eq_some hfound
    refine hQ storedObject _ (hlock.and ?_ (acquired_of_upserted hmem
      (StoredObject.sameContent_iff.mpr ⟨horg, hsha⟩)))
    intro d₁ d₂ hagree _ _ hacq
    refine hacq.of_iff fun o ho => ?_
    obtain ⟨horg, hsha⟩ := StoredObject.sameContent_iff.mp ho
    exact hagree _ List.mem_cons_self o horg hsha

/-- The object with an id is locked as it is, or there is none. -/
theorem uploads_lockObject {org id : Uuid}
    {Q : Option StoredObject → Cfg UploadRow UploadStmt UploadMark (UploadDb B) → Prop}
    (h : Knows rows K l σ) (hl : ∀ d, ((uploadSchema B).view l d).objects = d.objects)
    (hnone : ∀ σ', Q none σ')
    (hQ : ∀ o σ', o.id = id → o.organizationId = org →
      Knows (.object o.organizationId o.serverComputedSha256 :: rows)
        (fun d => K d ∧ o ∈ d.objects) l σ' → Q (some o) σ') :
    Uploads cfg c (lockObject org id) Q σ := by
  rw [lockObject, Uploads, Discipline.wp_bind]
  refine uploads_attempt fun d hd => ?_
  have hobject (d : UploadDb B) :
      ((uploadModel cfg).schema.view σ.pending d).object org id = d.object org id := by
    change ((uploadSchema B).view σ.pending d).object org id = _
    rw [h.pending, UploadDb.object, UploadDb.object, hl]
  dsimp only
  rw [hobject]
  cases hfound : d.object org id with
  | none => exact hnone _
  | some o =>
    intro d' hd'
    refine ⟨fun hq => ?_, fun _ => hnone _⟩
    intro d'' hd''
    change Q (((uploadModel cfg).schema.view σ.pending d'').object org id) _
    rw [hobject]
    cases hfound'' : d''.object org id with
    | none => exact hnone _
    | some o'' =>
      -- the same object as before, whose entry is locked
      obtain ⟨hmem, hid, -⟩ := UploadDb.object_eq_some hfound
      obtain ⟨hmem'', hid'', horg''⟩ := UploadDb.object_eq_some hfound''
      obtain ⟨o', ho', hoid, horg, hsha, -⟩ := (hd'.evolves.trans hd''.evolves).objects o hmem
      obtain rfl := hd''.inv.eq_of_id ho' hmem'' (hoid.trans (hid.trans hid''.symm))
      have hlock := (((h.rely hd subset_rfl).rely hd' (Set.subset_insert (UploadRow.object
        o.organizationId o.serverComputedSha256) _)).rely hd'' subset_rfl).lock
          (r := .object o'.organizationId o'.serverComputedSha256)
          (by rw [horg, hsha]; exact Set.mem_insert _ _)
      refine hQ o' _ hid'' horg'' (hlock.and ?_ hmem'')
      exact fun d₁ d₂ hagree _ _ ho₁ => (hagree _ List.mem_cons_self o' rfl rfl).mpr ho₁

/-- A version is locked as it is, or there is none. -/
theorem uploads_lockVersion {org id : Uuid}
    {Q : Option UploadedVersion → Cfg UploadRow UploadStmt UploadMark (UploadDb B) → Prop}
    (h : Knows rows K [] σ) (hnone : ∀ σ', Q none σ')
    (hQ : ∀ v σ', v.id = id → Knows (.version id :: rows) (fun d => K d ∧ v ∈ d.versions) [] σ' →
      Q (some v) σ') : Uploads cfg c (lockVersion org id) Q σ := by
  rw [lockVersion, Uploads, Discipline.wp_bind]
  refine uploads_attempt fun d hd => ⟨fun hq => ?_, fun _ => hnone _⟩
  intro d' hd'
  have hview : (uploadSchema B).view σ.pending d' = d' := by rw [h.pending]; rfl
  change Q (((uploadSchema B).view σ.pending d').version org id) _
  rw [hview]
  have hlock := ((h.rely hd (Set.subset_insert (UploadRow.version id) _)).rely hd' subset_rfl).lock
    (r := .version id) (Set.mem_insert _ _)
  cases hfound : d'.version org id with
  | none => exact hnone _
  | some v =>
    obtain ⟨hmem, hid, -⟩ := UploadDb.version_eq_some hfound
    refine hQ v _ hid (hlock.and ?_ hmem)
    exact fun d₁ d₂ hagree _ _ hv => (hagree _ List.mem_cons_self v hid).mpr hv

/-- The bytes of a session that is locked and not finalized are read. -/
theorem uploads_getObject {org i : Uuid} {key : String} {row : UploadSession}
    {Q : B → Cfg UploadRow UploadStmt UploadMark (UploadDb B) → Prop}
    (h : Knows rows K [] σ) (hlocked : .session i ∈ rows)
    (hrow : ∀ d, K d → d.sessions i = some row)
    (horg : row.organizationId = org) (hstatus : row.status ≠ .finalized)
    (hkey : row.temporaryObjectKey = some key)
    (hQ : ∀ bytes σ', Knows rows (fun d => K d ∧ d.storage org key = some bytes) [] σ' →
      Q bytes σ') : Uploads cfg c (getObject org key) Q σ := by
  rw [getObject, Uploads, Discipline.wp_bind]
  refine uploads_attempt fun d hd => ?_
  have hview : (uploadModel cfg).schema.view σ.pending d = d := by rw [h.pending]; rfl
  rw [hview]
  dsimp only
  cases hfound : d.storage org key with
  | none => trivial
  | some bytes =>
    refine hQ bytes _ (Knows.and (h.rely hd subset_rfl) ?_ hfound)
    intro d₁ d₂ hagree _ hK hbytes
    rw [← horg, (hagree _ hlocked).2 row key (hrow d₁ hK) hstatus hkey, horg]
    exact hbytes

end Rules

/-! ## The programs -/

section Programs

variable {cfg : UploadConfig B} {σ : Cfg UploadRow UploadStmt UploadMark (UploadDb B)}

/-- A session that is finalized under a key that no object has. -/
def Duplicate (i : Uuid) (key : String) (d : UploadDb B) : Prop :=
  (∃ row, d.sessions i = some row ∧ row.status = .finalized ∧
    row.temporaryObjectKey = some key) ∧ ∀ o ∈ d.objects, o.opaqueObjectKey ≠ key

/-- It stays one. -/
theorem Duplicate.evolve {i : Uuid} {key : String} {d d' : UploadDb B}
    (hevolves : UploadsEvolve d d') (h : Duplicate i key d) : Duplicate i key d' := by
  obtain ⟨⟨row, hrow, hstatus, hkey⟩, hfree⟩ := h
  exact ⟨⟨row, hevolves.finalized i row hrow hstatus, hstatus, hkey⟩,
    hevolves.keys i row key hrow hstatus hkey hfree⟩

/-- The bytes of a duplicate are deleted. -/
theorem uploads_deleteObject {org i user : Uuid} {key : String}
    {Q : Unit → Cfg UploadRow UploadStmt UploadMark (UploadDb B) → Prop}
    (hpending : σ.pending = []) (hdup : Duplicate i key σ.db) (hQ : ∀ σ', Q () σ') :
    Uploads cfg (.finalizeUpload org i user) (deleteObject org key) Q σ := by
  rw [deleteObject, Uploads, Prog.bind_eq, Discipline.wp_bind]
  have hknows : Knows [] (Duplicate i key) [] σ :=
    ⟨fun d d' _ hevolves hd => hd.evolve hevolves, nofun, hdup, hpending⟩
  refine uploads_execute hknows fun σ₁ h₁ => uploads_commit h₁ ?_ fun _ _ σ₂ _ _ _ _ _ => hQ σ₂
  intro d d' hd hK hreplay
  obtain ⟨⟨row, hrow, hstatus, hkey⟩, hfree⟩ := hK
  obtain rfl := (uploadSchema B).replay_eq_ok hreplay
  exact .deleteObject hd hrow hstatus hkey hfree

/-- An upload session expires. -/
theorem uploads_transition_expire {org i user : Uuid} {row : UploadSession}
    {rows : List UploadRow} {K : UploadDb B → Prop}
    {Q : Unit → Cfg UploadRow UploadStmt UploadMark (UploadDb B) → Prop} (h : Knows rows K [] σ)
    (hrow : ∀ d, K d → d.sessions i = some row) (hid : row.id = i)
    (hstatus : row.status ≠ .finalized) (hQ : ∀ σ', Q () σ') :
    Uploads cfg (.finalizeUpload org i user)
      ((transitionUploadSession row.id row.status .expired org).bind fun _ => commit) Q σ := by
  rw [Uploads, Discipline.wp_bind, transitionUploadSession, Prog.bind_eq, Discipline.wp_bind, hid]
  refine uploads_lockSession h (fun _ => rfl) (fun _ => trivial) fun row' σ₁ _ _ h₁ => ?_
  dsimp only
  split
  · trivial
  rw [Prog.bind_eq, Discipline.wp_bind]
  refine uploads_execute h₁ fun σ₂ h₂ => uploads_attempt ?_
  refine uploads_commit h₂ ?_ fun _ _ σ₃ _ _ _ _ _ => hQ σ₃
  intro d d' hd hK hreplay
  obtain rfl := (uploadSchema B).replay_eq_ok hreplay
  exact .expire hd (by simp [UploadStmt.target]) (hrow d hK.1) hstatus

/-- The rows of an upload: **one commit finalizes it**, and what was a duplicate is deleted. -/
theorem uploads_insertUpload {org i user : Uuid} {row : UploadSession} {key : String} {bytes : B}
    {size : ℕ} {mime : String} {u storedObject : StoredObject} {rows : List UploadRow}
    {K : UploadDb B → Prop} (hcK : ∀ d, K d → d.sessions i = some row ∧
      d.storage org key = some bytes ∧ Acquired d.objects u storedObject)
    (h : Knows rows K [.upsertObject u] σ)
    (hobject : .object u.organizationId u.serverComputedSha256 ∈ rows) (hid : row.id = i)
    (hstatus : row.status ≠ .finalized) (hkey : row.temporaryObjectKey = some key)
    (horg : u.organizationId = org) (hukey : u.opaqueObjectKey = key)
    (hsha : u.serverComputedSha256 = cfg.sha256 bytes) (hcount : u.referenceCount = 1) :
    Uploads cfg (.finalizeUpload org i user)
      (insertUpload row org user key (cfg.sha256 bytes) size mime storedObject
        (storedObject.opaqueObjectKey != key)) (fun _ _ => True) σ := by
  simp only [insertUpload, Prog.bind_eq, Uploads, Discipline.wp_bind]
  refine uploads_uuid4 fun documentId => uploads_execute h fun σ₁ h₁ => ?_
  refine uploads_uuid4 fun versionId => uploads_execute h₁ fun σ₂ h₂ => ?_
  refine uploads_uuid4 fun jobId => uploads_execute h₂ fun σ₃ h₃ => ?_
  simp only [transitionUploadSession, Prog.bind_eq, Discipline.wp_bind, hid]
  refine uploads_lockSession h₃ (fun _ => rfl) (fun _ => trivial) fun row' σ₄ _ _ h₄ => ?_
  dsimp only
  split
  · trivial
  rw [Discipline.wp_bind]
  refine uploads_execute h₄ fun σ₅ h₅ => uploads_attempt ?_
  -- the rest of the program, whether the object was there or not
  have hcommit : ∀ Q : Unit → Cfg UploadRow UploadStmt UploadMark (UploadDb B) → Prop,
      (∀ σ', σ'.pending = [] → ((storedObject.opaqueObjectKey != key) = true →
        Duplicate i key σ'.db) → Q () σ') →
      Uploads cfg (.finalizeUpload org i user) commit Q σ₅ := by
    intro Q hQ
    refine uploads_commit h₅ ?_ fun d d' σ₆ hd hK hreplay hdb hpending => hQ σ₆ hpending ?_
    · intro d d' hd hK hreplay
      obtain ⟨hrow, hbytes, hacq⟩ := hcK d hK.1
      refine .finalize hd hrow hstatus hkey hbytes horg hukey hsha hcount hacq rfl rfl ?_ ?_ ?_
        hreplay
      · simp [UploadStmt.target]
      · simp [UploadStmt.target, hobject]
      · simp [UploadStmt.target]
    · intro hdup
      obtain ⟨hrow, hbytes, hacq⟩ := hcK d hK.1
      have hview := (uploadSchema B).replay_eq_ok hreplay
      rw [hdb, hview]
      refine ⟨⟨{ row with status := .finalized }, ?_, rfl, hkey⟩, fun o ho => ?_⟩
      · change (if i = i then (d.sessions i).map fun row => { row with status := .finalized }
          else d.sessions i) = _
        rw [if_pos rfl, hrow]
        rfl
      · -- the object has a key of its own, and no object has that of the session
        have hfree : ∀ x ∈ d.objects, x.opaqueObjectKey ≠ key := fun x hx hxk =>
          hstatus (hd.finalized x hx i row hrow (hxk ▸ hkey))
        change o ∈ upserted u d.objects at ho
        cases hacq with
        | created hnew heq =>
          rw [heq, hukey] at hdup
          simp at hdup
        | there x hx hsame heq =>
          rw [upserted_of_mem hx hsame] at ho
          obtain ⟨y, hy, rfl⟩ := List.mem_map.mp ho
          rw [(same_upserted u y).opaqueObjectKey]
          exact hfree y hy
  cases hdup : storedObject.opaqueObjectKey != key with
  | true =>
    simp only [if_true, Discipline.wp_bind]
    refine uploads_attempt (uploads_attempt (uploads_attempt (uploads_attempt ?_)))
    exact hcommit _ fun σ' hpending hd => uploads_deleteObject hpending (hd hdup) fun _ => trivial
  | false =>
    simp only [Bool.false_eq_true, if_false, Discipline.wp_bind]
    refine uploads_attempt (uploads_attempt (uploads_attempt ?_))
    exact hcommit _ fun σ' _ _ => trivial

/-- The object is inserted, or one more reference to it is counted, and it is locked. -/
theorem uploads_createOrAcquire {c : UploadCall} {org : Uuid} {sha key mime : String} {size : ℕ}
    {rows : List UploadRow} {K : UploadDb B → Prop}
    {Q : StoredObject × Bool → Cfg UploadRow UploadStmt UploadMark (UploadDb B) → Prop}
    (h : Knows rows K [] σ)
    (hQ : ∀ (u storedObject : StoredObject) (rows' : List UploadRow) σ',
      u.organizationId = org → u.opaqueObjectKey = key → u.serverComputedSha256 = sha →
      u.referenceCount = 1 → .object u.organizationId u.serverComputedSha256 ∈ rows' →
      Knows rows' (fun d => K d ∧ Acquired d.objects u storedObject) [.upsertObject u] σ' →
      Q (storedObject, storedObject.opaqueObjectKey != key) σ') :
    Uploads cfg c (createOrAcquire org sha key size mime) Q σ := by
  simp only [createOrAcquire, Prog.bind_eq, Uploads, Discipline.wp_bind]
  refine uploads_uuid4 fun id => uploads_execute h fun σ₁ h₁ => ?_
  exact uploads_lockObjectOf (u := ⟨id, org, key, size, sha, mime, "ACTIVE", 1⟩) h₁
    (fun _ => trivial) fun storedObject σ₂ h₂ =>
      hQ _ storedObject _ σ₂ rfl rfl rfl rfl List.mem_cons_self h₂

theorem uploads_finalizeUpload {org i user : Uuid}
    (hpending : σ.pending = []) :
    Uploads cfg (.finalizeUpload org i user) (finalizeUpload cfg org i user)
      (fun _ _ => True) σ := by
  simp only [finalizeUpload, Prog.bind_eq, Uploads, Discipline.wp_bind]
  refine uploads_lockSession (Knows.start hpending) (fun _ => rfl) (fun _ => trivial)
    fun row σ₁ hid horg h₁ => ?_
  dsimp only
  split
  · trivial
  rename_i hopen
  have hstatus : row.status ≠ .finalized := fun hf => hopen (.inl hf)
  rw [Discipline.wp_bind]
  refine uploads_now fun t => ?_
  split
  · rw [← Prog.bind_assoc, Discipline.wp_bind]
    exact uploads_transition_expire h₁ (fun d hK => hK.2) hid hstatus fun _ => trivial
  cases hkey : row.temporaryObjectKey.filter (· ≠ "") with
  | none => trivial
  | some key =>
    have hkey : row.temporaryObjectKey = some key := (Option.filter_eq_some_iff.mp hkey).1
    dsimp only
    rw [Discipline.wp_bind]
    refine uploads_getObject h₁ List.mem_cons_self (fun d hK => hK.2) horg hstatus hkey
      fun bytes σ₂ h₂ => ?_
    split
    · rw [Discipline.wp_bind]
      exact uploads_attempt trivial
    rw [Discipline.wp_bind]
    refine uploads_getObject h₂ List.mem_cons_self (fun d hK => hK.1.2) horg hstatus hkey
      fun sample σ₃ h₃ => ?_
    cases cfg.validateFileSecurity sample row.sanitizedFilename row.declaredMimeType with
    | none => trivial
    | some mime =>
      dsimp only
      rw [Discipline.wp_bind]
      refine uploads_tryCatch (uploads_createOrAcquire h₃ ?_) fun err σ' => ?_
      · intro u storedObject rows' σ₄ huorg hukey husha hcount hmem h₄
        refine uploads_tryCatch ?_ fun err σ' => uploads_compensate
        exact uploads_insertUpload (fun d hK => ⟨hK.1.1.1.2, hK.1.1.2, hK.2⟩) h₄ hmem hid hstatus
          hkey huorg hukey husha hcount
      · rw [Uploads, Discipline.wp_bind]
        exact uploads_compensate

theorem uploads_releaseVersion {org id : Uuid} (hpending : σ.pending = []) :
    Uploads cfg (.releaseVersion org id) (releaseVersion org id) (fun _ _ => True) σ := by
  simp only [releaseVersion, releaseReference, Prog.bind_eq, Uploads, Discipline.wp_bind]
  refine uploads_lockVersion (Knows.start hpending) (fun _ => trivial) fun v σ₁ hid h₁ => ?_
  dsimp only
  rw [Discipline.wp_bind]
  refine uploads_execute h₁ fun σ₂ h₂ => ?_
  simp only [Discipline.wp_bind]
  refine uploads_lockObject h₂ (fun _ => rfl) (fun _ => trivial) fun o σ₃ hoid _ h₃ => ?_
  dsimp only
  split
  · trivial
  rename_i hpos
  rw [Discipline.wp_bind]
  refine uploads_execute h₃ fun σ₄ h₄ => ?_
  refine uploads_commit h₄ ?_ fun _ _ σ₅ _ _ _ _ _ => trivial
  intro d d' hd hK hreplay
  obtain rfl := (uploadSchema B).replay_eq_ok hreplay
  refine .releaseVersion hd hK.1.2 hK.2 hoid (by omega) ?_ ?_
  · simp [UploadStmt.target]
  · simp [UploadStmt.target]

theorem uploads_reconcile {org id : Uuid} (hpending : σ.pending = []) :
    Uploads cfg (.reconcile org id) ((reconcile org id).bind fun _ => commit)
      (fun _ _ => True) σ := by
  simp only [reconcile, Prog.bind_eq, Prog.bind, Uploads, Discipline.wp, Discipline.wp_bind]
  refine fun d hd => ⟨trivial, uploads_attempt fun d' hd' => ?_⟩
  refine uploads_lockObject (Knows.start hpending) (fun _ => rfl) (fun _ => trivial)
    fun o σ₁ hoid horg h₁ => ?_
  dsimp only
  rw [Discipline.wp_bind]
  refine uploads_execute h₁ fun σ₂ h₂ => uploads_commit h₂ ?_ fun _ _ σ₃ _ _ _ _ _ => trivial
  intro d d' hd hK hreplay
  obtain rfl := (uploadSchema B).replay_eq_ok hreplay
  exact .reconcile hd hK.2 hoid horg (by simp [UploadStmt.target])

/-- **Every call keeps the discipline.** -/
theorem upload_sound : (uploadDiscipline cfg).Sound where
  body c d hd := by
    cases c with
    | finalizeUpload org session user => exact uploads_finalizeUpload rfl
    | releaseVersion org version => exact uploads_releaseVersion rfl
    | reconcile org object => exact uploads_reconcile rfl
  env_inv := nofun
  env_evolves := nofun
  env_agree := nofun

end Programs

end FinanceIntelligence
