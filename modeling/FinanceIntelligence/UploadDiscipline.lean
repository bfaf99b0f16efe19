import FinanceIntelligence.UploadService

/-!
# What an upload may commit

`UploadsWell` is what holds of the upload tables and the storage between transactions: above all,
**a stored object has its bytes**. A session's row lock protects its uploaded bytes as long as it
is not finalized, and the lock on an object's entry protects the object.
-/

namespace FinanceIntelligence

variable {B : Type}

/-- What holds of the contents between transactions. -/
structure UploadsWell (sha256 : B → String) (d : UploadDb B) : Prop where
  /-- the sessions are keyed by id -/
  keyed : ∀ i row, d.sessions i = some row → row.id = i
  /-- each has its own temporary key -/
  ownKey : ∀ i j row row' k, d.sessions i = some row → d.sessions j = some row' →
    row.temporaryObjectKey = some k → row'.temporaryObjectKey = some k → i = j
  /-- there is one object of an organization with a hash -/
  uniqueHash : d.objects.Pairwise fun o o' =>
    ¬ (o.organizationId = o'.organizationId ∧ o.serverComputedSha256 = o'.serverComputedSha256)
  /-- and one with an id -/
  uniqueId : d.objects.Pairwise fun o o' => o.id ≠ o'.id
  /-- **an object has its bytes** -/
  stored : ∀ o ∈ d.objects, ∃ bytes, d.storage o.organizationId o.opaqueObjectKey = some bytes ∧
    sha256 bytes = o.serverComputedSha256
  /-- bytes that are those of an object belong to a session that is finalized -/
  finalized : ∀ o ∈ d.objects, ∀ i row, d.sessions i = some row →
    row.temporaryObjectKey = some o.opaqueObjectKey → row.status = .finalized
  /-- there is one version with an id -/
  uniqueVersion : d.versions.Pairwise fun v v' => v.id ≠ v'.id
  /-- a version refers to an object of its organization -/
  refers : ∀ v ∈ d.versions, ∃ o ∈ d.objects,
    o.id = v.storedObjectId ∧ o.organizationId = v.organizationId

/-- How the contents evolve. -/
structure UploadsEvolve (d d' : UploadDb B) : Prop where
  /-- a finalized session stays as it is -/
  finalized : ∀ i row, d.sessions i = some row → row.status = .finalized →
    d'.sessions i = some row
  /-- an uploaded session has been as it is, and so have its bytes -/
  uploaded : ∀ i row, d'.sessions i = some row → row.status = .uploaded →
    d.sessions i = some row ∧ ∀ k, row.temporaryObjectKey = some k →
      d'.storage row.organizationId k = d.storage row.organizationId k
  /-- a session keeps its place -/
  sessions : ∀ i, (d.sessions i).isSome = true → (d'.sessions i).isSome = true
  /-- an object keeps its identity -/
  objects : ∀ o ∈ d.objects, ∃ o' ∈ d'.objects, o'.id = o.id ∧
    o'.organizationId = o.organizationId ∧ o'.serverComputedSha256 = o.serverComputedSha256 ∧
    o'.opaqueObjectKey = o.opaqueObjectKey
  /-- no object takes the key of a finalized session -/
  keys : ∀ i row k, d.sessions i = some row → row.status = .finalized →
    row.temporaryObjectKey = some k → (∀ o ∈ d.objects, o.opaqueObjectKey ≠ k) →
    ∀ o ∈ d'.objects, o.opaqueObjectKey ≠ k

theorem UploadsEvolve.refl (d : UploadDb B) : UploadsEvolve d d where
  finalized _ _ h _ := h
  uploaded _ _ h _ := ⟨h, fun _ _ => rfl⟩
  sessions _ h := h
  objects o h := ⟨o, h, rfl, rfl, rfl, rfl⟩
  keys _ _ _ _ _ _ h := h

theorem UploadsEvolve.trans {d₁ d₂ d₃ : UploadDb B} (h : UploadsEvolve d₁ d₂)
    (h' : UploadsEvolve d₂ d₃) : UploadsEvolve d₁ d₃ where
  finalized i row hrow hf := h'.finalized i row (h.finalized i row hrow hf) hf
  uploaded i row hrow hu := by
    obtain ⟨hrow₂, hstorage₂⟩ := h'.uploaded i row hrow hu
    obtain ⟨hrow₁, hstorage₁⟩ := h.uploaded i row hrow₂ hu
    exact ⟨hrow₁, fun k hk => (hstorage₂ k hk).trans (hstorage₁ k hk)⟩
  sessions i hi := h'.sessions i (h.sessions i hi)
  objects o ho := by
    obtain ⟨o₂, ho₂, hid, horg, hsha, hkey⟩ := h.objects o ho
    obtain ⟨o₃, ho₃, hid', horg', hsha', hkey'⟩ := h'.objects o₂ ho₂
    exact ⟨o₃, ho₃, hid'.trans hid, horg'.trans horg, hsha'.trans hsha, hkey'.trans hkey⟩
  keys i row k hrow hf hk hno :=
    h'.keys i row k (h.finalized i row hrow hf) hf hk (h.keys i row k hrow hf hk hno)

/-- The count of an object changes with the number of versions that refer to it. -/
def CountsFollow (d d' : UploadDb B) : Prop :=
  ∀ o' ∈ d'.objects, o'.referenceCount = d'.versionCount o'.id ∨
    ∃ o ∈ d.objects, o.id = o'.id ∧
      o'.referenceCount + d.versionCount o'.id = o.referenceCount + d'.versionCount o'.id

/-- What a commit of a call does, apart from keeping `UploadsWell`. -/
structure UploadStep (c : UploadCall) (d d' : UploadDb B) : Prop where
  /-- the contents evolve -/
  evolves : UploadsEvolve d d'
  /-- the counts follow the versions, unless an object of the organization is recounted -/
  counts : match c with
    | .reconcile org id => d'.versions = d.versions ∧
      ∃ o ∈ d.objects, o.id = id ∧ o.organizationId = org
    | _ => CountsFollow d d'
  /-- a finalization leaves its session in another status -/
  status : match c with
    | .finalizeUpload _ session _ => ∀ row, d'.sessions session = some row → row.status ≠ .uploaded
    | _ => True

/-- What the lock on a row protects. -/
def UploadRow.Agree : UploadRow → UploadDb B → UploadDb B → Prop
  | .session i, d, d' => d'.sessions i = d.sessions i ∧ ∀ row k, d.sessions i = some row →
      row.status ≠ .finalized → row.temporaryObjectKey = some k →
      d'.storage row.organizationId k = d.storage row.organizationId k
  | .object organizationId sha256, d, d' => ∀ o : StoredObject,
      o.organizationId = organizationId → o.serverComputedSha256 = sha256 →
      (o ∈ d'.objects ↔ o ∈ d.objects)
  | .version i, d, d' => ∀ v : UploadedVersion, v.id = i → (v ∈ d'.versions ↔ v ∈ d.versions)

theorem UploadRow.Agree.refl (r : UploadRow) (d : UploadDb B) : r.Agree d d := by
  cases r with
  | session i => exact ⟨rfl, fun _ _ _ _ _ => rfl⟩
  | object org sha => exact fun _ _ _ => Iff.rfl
  | version i => exact fun _ _ => Iff.rfl

theorem UploadRow.Agree.trans {r : UploadRow} {d₁ d₂ d₃ : UploadDb B} (h : r.Agree d₁ d₂)
    (h' : r.Agree d₂ d₃) : r.Agree d₁ d₃ := by
  cases r with
  | session i =>
    refine ⟨h'.1.trans h.1, fun row k hrow hstatus hk => ?_⟩
    exact (h'.2 row k (h.1.trans hrow) hstatus hk).trans (h.2 row k hrow hstatus hk)
  | object org sha => exact fun o horg hsha => (h' o horg hsha).trans (h o horg hsha)
  | version i => exact fun v hv => (h' v hv).trans (h v hv)

/-- The discipline of the upload code. -/
def uploadDiscipline (cfg : UploadConfig B) : Discipline (uploadModel cfg) where
  agree := UploadRow.Agree
  agree_refl := UploadRow.Agree.refl
  agree_trans _ _ _ _ := UploadRow.Agree.trans
  inv := UploadsWell cfg.sha256
  evolves := UploadsEvolve
  evolves_refl := UploadsEvolve.refl
  evolves_trans _ _ _ := UploadsEvolve.trans
  guar c _ := UploadStep c
  guar_evolves _ _ _ _ h := h.evolves
  noted _ _ _ := True
  raised _ _ := True
  sound _ := False

end FinanceIntelligence
