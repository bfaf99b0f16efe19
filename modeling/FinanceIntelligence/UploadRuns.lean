import FinanceIntelligence.UploadCalls
import FinanceIntelligence.TransactionTrace

/-!
# Runs of uploads

Any number of uploads are finalized, versions released and objects recounted, in any order. In
every state of such a run a stored object has its bytes, and a finalization that has not gone
through has changed nothing, so that it can be repeated. The reference counts are exact as long as
nobody adds or releases a version of an object while it is recounted.

* `storedObject_hasBytes` — **the bytes are there**, in every state of every run;
* `finalizeUpload_canBeRetried` — a call that fails can be **called again**, wherever it stops.
-/

namespace FinanceIntelligence

open UploadsRouter

variable {B : Type} {cfg : UploadConfig B} {d₀ : UploadDb B}

/-- A state of the upload plane. -/
abbrev UploadSys (B : Type) :=
  Sys UploadRow UploadStmt UploadAnswer UploadMark (UploadDb B) UploadExc UploadCall

/-- Every reachable state is safe. -/
theorem upload_safe (h₀ : UploadsWell cfg.sha256 d₀)
    {s : UploadSys B} (h : (uploadModel cfg).Reachable d₀ s) : (uploadDiscipline cfg).Safe s :=
  upload_sound.safe h₀ h

/-- A step makes the contents evolve. -/
theorem upload_step_evolves {s s' : UploadSys B} (h : (uploadDiscipline cfg).Safe s)
    {a : Act UploadAnswer UploadCall Empty} (hs : (uploadModel cfg).step a s = some s') :
    UploadsEvolve s.db s'.db := by
  rcases h.step_db hs with hdb | ⟨e, -, -⟩ | ⟨pr, -, -, hguar⟩
  · rw [hdb]
    exact .refl s.db
  · exact e.elim
  · exact hguar.evolves

/-- A run makes the contents evolve. -/
theorem upload_evolves (h₀ : UploadsWell cfg.sha256 d₀)
    {s : UploadSys B} (h : (uploadModel cfg).Reachable d₀ s) : UploadsEvolve d₀ s.db := by
  refine h.invariant (P := fun s => UploadsEvolve d₀ s.db) (.refl d₀) ?_
  exact fun hreach hevolves _ hs => hevolves.trans (upload_step_evolves (upload_safe h₀ hreach) hs)

/-- **A stored object always has its bytes**, and there is one of an organization with a hash. -/
theorem storedObject_hasBytes (h₀ : UploadsWell cfg.sha256 d₀)
    {s : UploadSys B} (h : (uploadModel cfg).Reachable d₀ s) :
    (∀ o ∈ s.db.objects, ∀ o' ∈ s.db.objects, o.organizationId = o'.organizationId →
      o.serverComputedSha256 = o'.serverComputedSha256 → o = o') ∧
    s.db.objects.Nodup ∧
    ∀ o ∈ s.db.objects, ∃ bytes, s.db.storage o.organizationId o.opaqueObjectKey = some bytes ∧
      cfg.sha256 bytes = o.serverComputedSha256 := by
  have hwell := (upload_safe h₀ h).inv
  refine ⟨fun o ho o' ho' => hwell.eq_of_hash ho ho', ?_, hwell.stored⟩
  exact hwell.uniqueId.imp fun {o o'} hne hoo => hne (by rw [hoo])

/-- A finalization that has changed something leaves its session in another status. -/
theorem not_uploaded_of_touched (h₀ : UploadsWell cfg.sha256 d₀)
    {p : ℕ} {org i user : Uuid} {rest : UploadProg B Unit} {touched : Prop} {s : UploadSys B}
    (h : (uploadModel cfg).Through d₀ p (.finalizeUpload org i user)
      (finalizeUpload cfg org i user) rest touched s) (ht : touched) :
    ∀ row, s.db.sessions i = some row → row.status ≠ .uploaded := by
  have hbody : (uploadModel cfg).body (.finalizeUpload org i user) =
      (finalizeUpload cfg org i user).bind .ret := (Prog.bind_ret _).symm
  -- a session that is not UPLOADED does not become so
  have hstays {s s' : UploadSys B} {a : Act UploadAnswer UploadCall Empty}
      (hreach : (uploadModel cfg).Reachable d₀ s) (hs : (uploadModel cfg).step a s = some s')
      (hno : ∀ row, s.db.sessions i = some row → row.status ≠ .uploaded) :
      ∀ row, s'.db.sessions i = some row → row.status ≠ .uploaded := fun row hrow hu =>
    hno row ((upload_step_evolves (upload_safe h₀ hreach) hs).uploaded i row hrow hu).1 hu
  induction h with
  | start _ _ => exact ht.elim
  | @own rest touched s s' j pr h hgoes hp hs ih =>
    rcases ht with ht | hne
    · exact hstays h.reachable hs (ih ht)
    · -- the contents change when a call commits, and it is this one
      rcases (upload_safe h₀ h.reachable).step_db hs with hdb | ⟨e, -, -⟩ | ⟨pr', hc, -, hguar⟩
      · exact absurd hdb hne
      · exact e.elim
      · obtain ⟨q, j', ha, hq, -⟩ := hc
        cases ha
        obtain ⟨pending, mark, hproc⟩ := h.proc hbody
        obtain rfl := Option.some.inj (hproc.symm.trans hq)
        exact hguar.status
  | other h _ _ hs ih => exact hstays h.reachable hs (ih ht)

/-- **A failed finalization can be retried**: at whatever point it stops, it has changed nothing
and the session is UPLOADED with its bytes as they were, or the session is not UPLOADED. -/
theorem finalizeUpload_canBeRetried (h₀ : UploadsWell cfg.sha256 d₀) {p : ℕ}
    {org i user : Uuid} {rest : UploadProg B Unit} {touched : Prop} {s : UploadSys B}
    (h : (uploadModel cfg).Through d₀ p
      (.finalizeUpload org i user) (finalizeUpload cfg org i user) rest touched s) :
    ((¬ touched ∧ ∃ row, s.db.sessions i = some row ∧ row.status = .uploaded ∧
        d₀.sessions i = some row ∧ ∀ k, row.temporaryObjectKey = some k →
          s.db.storage row.organizationId k = d₀.storage row.organizationId k) ∨
      ∀ row, s.db.sessions i = some row → row.status ≠ .uploaded) ∧
    ((∀ j row k, d₀.sessions j = some row → row.status = .uploaded →
        row.temporaryObjectKey = some k → (d₀.storage row.organizationId k).isSome = true) →
      ∀ j row k, s.db.sessions j = some row → row.status = .uploaded →
        row.temporaryObjectKey = some k → (s.db.storage row.organizationId k).isSome = true) := by
  have hevolves := upload_evolves h₀ h.reachable
  refine ⟨?_, fun hbytes j row k hrow hu hk => ?_⟩
  · by_cases hrow : ∃ row, s.db.sessions i = some row ∧ row.status = .uploaded
    · obtain ⟨row, hrow, hu⟩ := hrow
      refine .inl ⟨fun ht => not_uploaded_of_touched h₀ h ht row hrow hu, row, hrow, hu, ?_⟩
      exact hevolves.uploaded i row hrow hu
    · exact .inr fun row hrow' hu => hrow ⟨row, hrow', hu⟩
  · obtain ⟨hrow₀, hstorage⟩ := hevolves.uploaded j row hrow hu
    rw [hstorage k hk]
    exact hbytes j row k hrow₀ hu hk

/-! ## Two uploads of one file -/

/-- A small file. -/
def statementFile : String := "metric,value\nTOTAL_ASSETS,500\n"

/-- Its SHA-256. -/
def statementHash : String := "0f7cd92fd275a8901c6a877004d0acda256b88b040c48ac01095b943ef346aa2"

/-- What is outside of the upload code, as far as the small file is concerned. -/
def statementConfig : UploadConfig String where
  sha256 bytes := if bytes = statementFile then statementHash else ""
  size := String.length
  validateFileSecurity _ _ declared := some declared
  implicitIo := false

/-- The small file was uploaded. -/
def statementSession (id : Uuid) (key : String) : UploadSession where
  id := id
  organizationId := 1
  sanitizedFilename := "statement.csv"
  declaredMimeType := "text/csv"
  classification := "CONFIDENTIAL"
  serverComputedSha256 := some statementHash
  status := .uploaded
  temporaryObjectKey := some key
  expiresAt := 100

/-- It was uploaded twice. -/
def sameFileTwice : UploadDb String where
  sessions i := if i = 2 then some (statementSession 2 "1/2.bin") else
    if i = 3 then some (statementSession 3 "1/3.bin") else none
  objects := []
  documents := []
  versions := []
  jobs := []
  storage org key :=
    if org = 1 ∧ (key = "1/2.bin" ∨ key = "1/3.bin") then some statementFile else none

theorem sameFileTwice_sessions {i : Uuid} {row : UploadSession}
    (h : sameFileTwice.sessions i = some row) :
    i = 2 ∧ row = statementSession 2 "1/2.bin" ∨ i = 3 ∧ row = statementSession 3 "1/3.bin" := by
  simp only [sameFileTwice] at h
  split at h
  · exact .inl ⟨‹_›, (Option.some.inj h).symm⟩
  · split at h
    · exact .inr ⟨‹_›, (Option.some.inj h).symm⟩
    · cases h

theorem sameFileTwice_well : UploadsWell statementConfig.sha256 sameFileTwice where
  keyed i row hrow := by
    rcases sameFileTwice_sessions hrow with ⟨rfl, rfl⟩ | ⟨rfl, rfl⟩ <;> rfl
  ownKey i j row row' k hrow hrow' hk hk' := by
    have hkeys := hk.trans hk'.symm
    rcases sameFileTwice_sessions hrow with ⟨rfl, rfl⟩ | ⟨rfl, rfl⟩ <;>
      rcases sameFileTwice_sessions hrow' with ⟨rfl, rfl⟩ | ⟨rfl, rfl⟩
    · rfl
    · exact absurd hkeys (by decide)
    · exact absurd hkeys (by decide)
    · rfl
  uniqueHash := .nil
  uniqueId := .nil
  stored := nofun
  finalized := nofun
  uniqueVersion := .nil
  refers := nofun

/-- Both uploads are finalized: they share one object with the bytes of the first, and those of
the second are gone. -/
theorem storedObject_hasBytes_sameFileTwice : ∃ s : UploadSys String,
    s.db.versions.length = 2 ∧ (s.db.storage 1 "1/3.bin").isNone = true ∧
    s.db.objects.map (·.opaqueObjectKey) = ["1/2.bin"] ∧
    ∀ o ∈ s.db.objects, ∃ bytes, s.db.storage o.organizationId o.opaqueObjectKey = some bytes ∧
      statementConfig.sha256 bytes = o.serverComputedSha256 := by
  have hrun : (((uploadModel statementConfig).run
      (Model.serve 0 (.finalizeUpload 1 2 9) 35 { uuid := 20, now := 50 } ++
        Model.serve 1 (.finalizeUpload 1 3 9) 40 { uuid := 30, now := 50 })
      (Model.idle sameFileTwice)).map fun s =>
        decide (s.db.versions.length = 2 ∧ (s.db.storage 1 "1/3.bin").isNone = true ∧
          s.db.objects.map (·.opaqueObjectKey) = ["1/2.bin"])) = some true := by decide
  obtain ⟨s, hs, h⟩ := Option.map_eq_some_iff.mp hrun
  obtain ⟨hversions, hgone, hkeys⟩ := of_decide_eq_true h
  have hreach : (uploadModel statementConfig).Reachable sameFileTwice s :=
    Model.ReachableBy.later .start (Model.LaterBy.of_runBy (fun _ _ _ => trivial) hs)
  exact ⟨s, hversions, hgone, hkeys, (storedObject_hasBytes sameFileTwice_well hreach).2.2⟩

/-- The commit of the first upload fails: the exception handler does not get to the bytes. -/
theorem finalizeUpload_canBeRetried_sameFileTwice : ∃ (touched : Prop) (s : UploadSys String),
    (uploadModel statementConfig).Through sameFileTwice 0 (.finalizeUpload 1 2 9)
      (finalizeUpload statementConfig 1 2 9) (.raise .missingGreenlet) touched s ∧
    ¬ touched ∧ ∃ row, s.db.sessions 2 = some row ∧ row.status = .uploaded := by
  obtain ⟨s₀, hs₀⟩ : ∃ s₀, (uploadModel statementConfig).step (.spawn 0 (.finalizeUpload 1 2 9))
      (Model.idle sameFileTwice) = some s₀ := ⟨_, rfl⟩
  have hrun : ((((uploadModel statementConfig).step (.spawn 0 (.finalizeUpload 1 2 9))
      (Model.idle sameFileTwice)).bind ((uploadModel statementConfig).runThrough 0
        (List.replicate 32 { uuid := 20, now := 50 } ++ List.replicate 2 { fails := true })
        (finalizeUpload statementConfig 1 2 9))).map fun x =>
          (match x.1 with
            | .raise .missingGreenlet => true
            | _ => false) &&
            decide ((x.2.db.sessions 2).map (·.status) = some .uploaded)) = some true := by
    decide
  obtain ⟨⟨rest, s⟩, hx, h⟩ := Option.map_eq_some_iff.mp hrun
  rw [hs₀] at hx
  simp only [Bool.and_eq_true, decide_eq_true_eq] at h
  obtain ⟨touched, hthrough⟩ := Model.Through.of_runThrough (.start .start hs₀) hx
  obtain ⟨row, hrow, hstatus⟩ := Option.map_eq_some_iff.mp h.2
  have hraise : rest = .raise .missingGreenlet := by
    have hmatch := h.1
    split at hmatch
    · rfl
    · cases hmatch
  subst hraise
  rcases (finalizeUpload_canBeRetried sameFileTwice_well hthrough).1 with ⟨ht, -⟩ | hno
  · exact ⟨touched, s, hthrough, ht, row, hrow, hstatus⟩
  · exact absurd hstatus (hno row hrow)

end FinanceIntelligence
