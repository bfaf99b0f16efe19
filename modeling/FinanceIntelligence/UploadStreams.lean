import FinanceIntelligence.CommandEnvelope
import FinanceIntelligence.LocalStorage
import FinanceIntelligence.StepRuns

/-!
# Uploads that are streamed at the same time

`initiate_and_stream_upload` (api/v1/documents.py) writes what it receives chunk by chunk to a
temporary file, counts and hashes it, and gives the file its name at the end; `finalize_upload`
reads it back under the same key. Any number of uploads go on at once, and each may be refused,
break off or stop with its process.

* `storage_complete` — **nothing or all of it**: what is found under a key is the whole content of
  one upload, which is not empty and not too large.
* `storage_immutable` — an object stays as it is until it is deleted, and does not come back.
* `recorded_verified` — the hash and the size that are recorded are those that are recomputed.
* `files_accounted` — every file belongs to an upload that is stored, under way or was stopped;
  a refused one leaves nothing.
-/

namespace FinanceIntelligence

open LocalStorage SecurityPipeline

/-! ## Keys -/

/-- `f"{org_id}/{session_id}.bin"` -/
def uploadKey (organizationId sessionId : Uuid) : List Char :=
  (uuidText organizationId).toList ++ '/' :: ((uuidText sessionId).toList ++ ".bin".toList)

theorem basename_append_slash {dir name : List Char} (h : ∀ c ∈ name, c ≠ '/') :
    basename (dir ++ '/' :: name) = name := by
  rw [basename, List.reverse_append, List.reverse_cons, List.append_assoc]
  have hall : ∀ c ∈ name.reverse, (c != '/') = true := fun c hc =>
    bne_iff_ne.mpr (h c (List.mem_reverse.mp hc))
  rw [List.takeWhile_append_of_pos hall]
  simp

theorem basename_of_no_slash {name : List Char} (h : ∀ c ∈ name, c ≠ '/') :
    basename name = name := by
  have hall : ∀ c ∈ name.reverse, (c != '/') = true := fun c hc =>
    bne_iff_ne.mpr (h c (List.mem_reverse.mp hc))
  have hself : (name.reverse ++ []).takeWhile (· != '/') = name.reverse ++ [] :=
    List.takeWhile_append_of_pos hall
  rw [List.append_nil] at hself
  rw [basename, hself, List.reverse_reverse]

/-- The name of the file of an upload. -/
def uploadName (sessionId : Uuid) : List Char := (uuidText sessionId).toList ++ ".bin".toList

/-- The file of an upload. -/
def uploadPath (root : StoragePath) (organizationId sessionId : Uuid) : StoragePath :=
  root ++ [(uuidText organizationId).toList, uploadName sessionId]

theorem uploadName_noSlash (sessionId : Uuid) : ∀ c ∈ uploadName sessionId, c ≠ '/' := by
  intro c hc
  rcases List.mem_append.mp hc with hc | hc
  · exact (uuidText_plain _ c hc).2
  · have hbin : ".bin".toList = ['.', 'b', 'i', 'n'] := rfl
    rw [hbin] at hc
    simp only [List.mem_cons, List.not_mem_nil, or_false] at hc
    rcases hc with rfl | rfl | rfl | rfl <;> decide

/-- Only one character of a key is a dot. -/
theorem count_dot_uploadKey (organizationId sessionId : Uuid) :
    (uploadKey organizationId sessionId).count '.' = 1 := by
  have hzero : ∀ id : Uuid, (uuidText id).toList.count '.' = 0 := fun id =>
    List.count_eq_zero.mpr fun hmem => (uuidText_plain id _ hmem).1 rfl
  rw [uploadKey, List.count_append, List.count_cons, List.count_append, hzero, hzero]
  rfl

theorem not_hasTraversal_upload (organizationId sessionId : Uuid) :
    hasTraversal (uuidText organizationId).toList (uploadKey organizationId sessionId) = false := by
  have hlen : (uuidText organizationId).toList.length = 36 := by simp [uuidText]
  have hdots : ∀ {text : List Char}, text.count '.' ≤ 1 → ¬ ['.', '.'] <:+: text := by
    intro text hcount hinfix
    have := hinfix.sublist.count_le '.'
    rw [show (['.', '.'] : List Char).count '.' = 2 from rfl] at this
    omega
  have hzero : (uuidText organizationId).toList.count '.' ≤ 1 := by
    rw [List.count_eq_zero.mpr fun hmem => (uuidText_plain _ _ hmem).1 rfl]
    exact Nat.zero_le 1
  have hhead : ∀ rest : List Char, ((uuidText organizationId).toList ++ rest).head? ≠ some '/' := by
    intro rest
    obtain ⟨c, l, hl⟩ := List.exists_cons_of_length_pos (by rw [hlen]; decide)
    rw [hl]
    exact fun heq => (uuidText_plain organizationId c (hl ▸ List.mem_cons_self)).2
      (Option.some.inj heq)
  have hself := hhead []
  rw [List.append_nil] at hself
  rw [hasTraversal, decide_eq_false (hdots hzero),
    decide_eq_false (hdots (count_dot_uploadKey _ _).le)]
  simp only [Bool.or_false, Bool.false_or, Bool.or_eq_false_iff, beq_eq_false_iff_ne]
  exact ⟨hself, hhead _⟩

/-- **The file of an upload.** -/
theorem target_upload (root : StoragePath) (organizationId sessionId : Uuid) :
    target .plain root (uuidText organizationId).toList (uploadKey organizationId sessionId) =
      .ok (uploadPath root organizationId sessionId) := by
  have hlen : (uuidText organizationId).toList.length = 36 := by simp [uuidText]
  have hjoin : ∀ {dir : StoragePath} {name : List Char}, 2 < name.length →
      dir.join name = dir ++ [name] := by
    intro dir name hname
    rw [StoragePath.join, if_neg, if_neg]
    · rintro rfl
      exact absurd hname (by decide)
    · rintro (rfl | rfl) <;> exact absurd hname (by decide)
  have hname : 2 < (uploadName sessionId).length := by simp [uploadName, uuidText]
  rw [target, resolveSafePath_plain, not_hasTraversal_upload, if_neg Bool.false_ne_true]
  change Except.ok _ = _
  have hkey : basename (uploadKey organizationId sessionId) = uploadName sessionId :=
    basename_append_slash (uploadName_noSlash sessionId)
  rw [basename_of_no_slash fun c hc => (uuidText_plain _ c hc).2, hkey, hjoin hname,
    hjoin (by omega)]
  simp [uploadPath]

/-- **Each upload has its own files.** -/
theorem uploadPath_injective {root : StoragePath} {org org' i i' : Uuid}
    (h : uploadPath root org i = uploadPath root org' i') : org = org' ∧ i = i' := by
  obtain ⟨hdir, hname⟩ : (uuidText org).toList = (uuidText org').toList ∧
      uploadName i = uploadName i' := by
    simpa [uploadPath] using h
  exact ⟨uuidText_injective hdir, uuidText_injective (List.append_cancel_right hname)⟩

theorem tmp_uploadPath (root : StoragePath) (org i : Uuid) :
    (uploadPath root org i).tmp =
      root ++ [(uuidText org).toList, uploadName i ++ ".tmp".toList] := by
  simp [uploadPath, StoragePath.tmp]

theorem tmp_uploadPath_injective {root : StoragePath} {org org' i i' : Uuid}
    (h : (uploadPath root org i).tmp = (uploadPath root org' i').tmp) : org = org' ∧ i = i' := by
  rw [tmp_uploadPath, tmp_uploadPath] at h
  obtain ⟨hdir, hname⟩ : (uuidText org).toList = (uuidText org').toList ∧
      uploadName i = uploadName i' := by
    simpa using h
  exact ⟨uuidText_injective hdir, uuidText_injective (List.append_cancel_right hname)⟩

/-- A temporary file is no upload's file. -/
theorem tmp_uploadPath_ne {root : StoragePath} {org org' i i' : Uuid} :
    (uploadPath root org i).tmp ≠ uploadPath root org' i' := by
  intro h
  rw [tmp_uploadPath, uploadPath] at h
  have hname : uploadName i ++ ".tmp".toList = uploadName i' := by
    have := List.append_cancel_left h
    exact List.head_eq_of_cons_eq (List.tail_eq_of_cons_eq this)
  have hlen := congrArg List.length hname
  simp [uploadName, uuidText] at hlen

/-! ## Streams -/

/-- A hash that is updated chunk by chunk, as those of `hashlib`. -/
structure StreamHash (α D : Type) where
  State : Type
  /-- `sha256()` -/
  init : State
  update : State → List α → State
  hexdigest : State → D
  /-- repeated calls are equivalent to one with the concatenation -/
  update_update : ∀ s a b, update (update s a) b = update s (a ++ b)

/-- Chunks that are hashed one after the other. -/
def StreamHash.updates {α D : Type} (H : StreamHash α D) (chunks : List (List α)) : H.State :=
  chunks.foldl H.update H.init

/-- The hash does not tell the chunks apart. -/
theorem StreamHash.updates_eq {α D : Type} (H : StreamHash α D) {chunks : List (List α)}
    (h : chunks ≠ []) : H.updates chunks = H.update H.init chunks.flatten := by
  obtain ⟨chunk, rest, rfl⟩ := List.exists_cons_of_ne_nil h
  rw [StreamHash.updates, List.foldl_cons, List.flatten_cons]
  induction rest generalizing chunk with
  | nil => rw [List.flatten_nil, List.append_nil, List.foldl_nil]
  | cons next rest ih =>
    rw [List.foldl_cons, H.update_update, ih (chunk ++ next) (List.cons_ne_nil _ _),
      List.flatten_cons, List.append_assoc]

/-- How far an upload is. -/
inductive StreamPhase where
  /-- chunks are received -/
  | streaming
  /-- the file has its name -/
  | stored
  /-- the session is recorded -/
  | recorded
  /-- `FILE_TOO_LARGE` -/
  | rejected
  /-- an exception has been raised before the file has its name -/
  | failed
  /-- the session could not be recorded, or the process has stopped before -/
  | orphaned
  /-- the process has stopped while chunks were received -/
  | crashed
  /-- the file is deleted by the finalization -/
  | deleted
deriving DecidableEq

/-- The file has its name. -/
def StreamPhase.hasFile : StreamPhase → Bool
  | stored | recorded | orphaned => true
  | _ => false

/-- There may be a temporary file. -/
def StreamPhase.hasTmp : StreamPhase → Bool
  | streaming | crashed => true
  | _ => false

/-- The stream has come to its end. -/
def StreamPhase.isComplete : StreamPhase → Bool
  | stored | recorded | orphaned | deleted => true
  | _ => false

theorem StreamPhase.isComplete_iff {p : StreamPhase} :
    p.isComplete = true ↔ p.hasFile = true ∨ p = .deleted := by
  cases p <;> decide

/-- An upload. -/
structure UploadStream (α S : Type) where
  /-- `org_id` -/
  organizationId : Uuid
  sessionId : Uuid
  maxAllowed : ℕ
  receivedBytes : ℕ
  sha256 : S
  /-- the chunks that have been written -/
  chunks : List (List α)
  /-- how far it is -/
  phase : StreamPhase

/-- What happens to an upload. -/
inductive StreamEvent (α : Type) where
  /-- the request has arrived and passed the checks of its name -/
  | start (organizationId : Uuid) (maxAllowed : ℕ)
  /-- `file.read(65536)` gives a chunk -/
  | chunk (bytes : List α)
  /-- it gives no more -/
  | endOfFile
  /-- it raises, or the chunk cannot be written -/
  | raises
  /-- the process stops -/
  | crash
  /-- the session is committed -/
  | commit
  /-- this raises -/
  | commitFails
  /-- `delete_object` by `finalize_upload`: the object is there already, or its rows cannot be
  committed -/
  | delete

/-- The files, and the uploads by their ids. -/
structure StreamSys (α S : Type) where
  files : Files α
  uploads : Uuid → Option (UploadStream α S)

section System

variable {α D : Type} (H : StreamHash α D) (root : StoragePath)

namespace UploadStream

variable (u : UploadStream α H.State)

/-- `target_path` -/
def path {S : Type} (u : UploadStream α S) : StoragePath :=
  uploadPath root u.organizationId u.sessionId

/-- What has been written. -/
def content {S : Type} (u : UploadStream α S) : List α := u.chunks.flatten

/-- The loop body of `initiate_and_stream_upload` and what follows the loop. -/
def react (files : Files α) : StreamEvent α → Option (UploadStream α H.State × Files α)
  | .start _ _ => none
  | .chunk bytes =>
    if u.phase ≠ .streaming ∨ bytes = [] ∨ 65536 < bytes.length then none
    else if u.maxAllowed < u.receivedBytes + bytes.length then
      some ({ u with receivedBytes := u.receivedBytes + bytes.length, phase := .rejected },
        files.remove (u.path root).tmp)
    else
      some ({ u with
          receivedBytes := u.receivedBytes + bytes.length
          sha256 := H.update u.sha256 bytes
          chunks := u.chunks ++ [bytes] },
        files.append (u.path root).tmp bytes)
  | .endOfFile =>
    if u.phase ≠ .streaming then none
    -- `finalize_temporary_write` raises if nothing has been written
    else if (files (u.path root).tmp).isNone then
      some ({ u with phase := .failed }, files.remove (u.path root).tmp)
    else some ({ u with phase := .stored }, files.replace (u.path root).tmp (u.path root))
  | .raises =>
    if u.phase ≠ .streaming then none
    else some ({ u with phase := .failed }, files.remove (u.path root).tmp)
  | .crash =>
    if u.phase = .streaming then some ({ u with phase := .crashed }, files)
    else if u.phase = .stored then some ({ u with phase := .orphaned }, files)
    else none
  | .commit => if u.phase = .stored then some ({ u with phase := .recorded }, files) else none
  | .commitFails => if u.phase = .stored then some ({ u with phase := .orphaned }, files) else none
  | .delete =>
    if u.phase = .recorded then some ({ u with phase := .deleted }, files.remove (u.path root))
    else none

end UploadStream

/-- One event of one upload. A session id is drawn afresh. -/
def StreamSys.step (s : StreamSys α H.State) (a : Uuid × StreamEvent α) :
    Option (StreamSys α H.State) :=
  match a.2 with
  | .start organizationId maxAllowed =>
    if (s.uploads a.1).isNone then
      some {
        files := s.files.remove (uploadPath root organizationId a.1).tmp
        uploads := Function.update s.uploads a.1 (some {
          organizationId := organizationId
          sessionId := a.1
          maxAllowed := maxAllowed
          receivedBytes := 0
          sha256 := H.init
          chunks := []
          phase := .streaming }) }
    else none
  | event =>
    (s.uploads a.1).bind fun u => (u.react H root s.files event).map fun r =>
      { files := r.2, uploads := Function.update s.uploads a.1 (some r.1) }

/-- Nothing is stored yet. -/
def StreamSys.start {S : Type} : StreamSys α S where
  files _ := none
  uploads _ := none

/-- What `LocalStorageAdapter` finds of an organization under a key. -/
def storageOf (files : Files α) (organizationId : Uuid) (key : List Char) : Option (List α) :=
  (getObject .plain root (uuidText organizationId).toList key files).toOption

/-- `compute_hash_and_size` -/
def computeHashAndSize (files : Files α) (organizationId : Uuid) (key : List Char) :
    Except StorageError (D × ℕ) := do
  let content ← getObject .plain root (uuidText organizationId).toList key files
  .ok (H.hexdigest (H.updates (readInChunks 65536 content)), content.length)

/-! ## One upload -/

variable {H} in
/-- What holds of an upload and its two files. -/
structure StreamInv (u : UploadStream α H.State) (files : Files α) : Prop where
  /-- the file is there if it has its name -/
  file : files (u.path root) = if u.phase.hasFile then some u.content else none
  /-- the temporary file holds what has been written -/
  tmp : files (u.path root).tmp =
    if u.phase.hasTmp ∧ u.chunks ≠ [] then some u.content else none
  /-- chunks are not empty -/
  chunks : ∀ chunk ∈ u.chunks, chunk ≠ []
  /-- the hash is that of the chunks -/
  sha256 : u.sha256 = H.updates u.chunks
  /-- what is written is counted, and not too large -/
  size : u.content.length ≤ u.maxAllowed
  /-- nothing else is counted, unless it is too large -/
  received : if u.phase = .rejected then u.maxAllowed < u.receivedBytes
    else u.receivedBytes = u.content.length
  /-- an empty file is not stored -/
  complete : u.phase.isComplete = true → u.chunks ≠ []

variable {H}

/-- What an event can do. -/
inductive Reacts (event : StreamEvent α) (u : UploadStream α H.State) (files : Files α) :
    UploadStream α H.State → Files α → Prop where
  /-- too much is received -/
  | rejects (n : ℕ) : u.phase = .streaming → u.maxAllowed < u.receivedBytes + n →
    Reacts event u files { u with receivedBytes := u.receivedBytes + n, phase := .rejected }
      (files.remove (u.path root).tmp)
  /-- a chunk is written -/
  | writes (bytes : List α) : u.phase = .streaming → bytes ≠ [] →
    u.receivedBytes + bytes.length ≤ u.maxAllowed →
    Reacts event u files { u with
        receivedBytes := u.receivedBytes + bytes.length
        sha256 := H.update u.sha256 bytes
        chunks := u.chunks ++ [bytes] }
      (files.append (u.path root).tmp bytes)
  /-- an exception is raised -/
  | fails : u.phase = .streaming →
    Reacts event u files { u with phase := .failed } (files.remove (u.path root).tmp)
  /-- the file takes its name -/
  | stores : u.phase = .streaming → (files (u.path root).tmp).isSome →
    Reacts event u files { u with phase := .stored }
      (files.replace (u.path root).tmp (u.path root))
  /-- the process stops while chunks are received -/
  | stops : u.phase = .streaming → Reacts event u files { u with phase := .crashed } files
  /-- the session is not recorded -/
  | orphans : u.phase = .stored → Reacts event u files { u with phase := .orphaned } files
  /-- the session is recorded -/
  | records : u.phase = .stored → Reacts event u files { u with phase := .recorded } files
  /-- the object is deleted -/
  | deletes : event = .delete → u.phase = .recorded →
    Reacts event u files { u with phase := .deleted } (files.remove (u.path root))

variable {root} {u u' : UploadStream α H.State} {files files' : Files α} {event : StreamEvent α}

theorem reacts_of_react (h : u.react H root files event = some (u', files')) :
    Reacts root event u files u' files' := by
  cases event with
  | start org max => cases h
  | chunk bytes =>
    simp only [UploadStream.react] at h
    split at h
    · cases h
    next hguard =>
      simp only [ne_eq, not_or, not_not] at hguard
      obtain ⟨hphase, hne, -⟩ := hguard
      split at h
      next hlarge =>
        cases h
        exact .rejects _ hphase hlarge
      next hsmall =>
        cases h
        exact .writes bytes hphase hne (by omega)
  | endOfFile =>
    simp only [UploadStream.react] at h
    split at h
    · cases h
    next hphase =>
      rw [not_not] at hphase
      split at h
      next =>
        cases h
        exact .fails hphase
      next hsome =>
        cases h
        exact .stores hphase (by simpa [Option.isSome_iff_ne_none] using hsome)
  | raises =>
    simp only [UploadStream.react] at h
    split at h
    · cases h
    next hphase =>
      cases h
      exact .fails (not_not.mp hphase)
  | crash =>
    simp only [UploadStream.react] at h
    split at h
    next hphase =>
      cases h
      exact .stops hphase
    next =>
      split at h
      next hphase =>
        cases h
        exact .orphans hphase
      next => cases h
  | commit =>
    obtain ⟨hphase, h⟩ := Option.ite_none_right_eq_some.mp h
    cases h
    exact .records hphase
  | commitFails =>
    obtain ⟨hphase, h⟩ := Option.ite_none_right_eq_some.mp h
    cases h
    exact .orphans hphase
  | delete =>
    obtain ⟨hphase, h⟩ := Option.ite_none_right_eq_some.mp h
    cases h
    exact .deletes rfl hphase

/-- An event leaves the identity of an upload, and the files of the others. -/
theorem Reacts.frame (h : Reacts root event u files u' files') :
    u'.path root = u.path root ∧ u'.organizationId = u.organizationId ∧
      u'.maxAllowed = u.maxAllowed ∧
      ∀ p, p ≠ u.path root → p ≠ (u.path root).tmp → files' p = files p := by
  cases h with
  | rejects n _ _ => exact ⟨rfl, rfl, rfl, fun p _ htmp => Function.update_of_ne htmp ..⟩
  | writes bytes _ _ _ => exact ⟨rfl, rfl, rfl, fun p _ htmp => Files.append_of_ne _ htmp⟩
  | fails _ => exact ⟨rfl, rfl, rfl, fun p _ htmp => Function.update_of_ne htmp ..⟩
  | stores _ _ => exact ⟨rfl, rfl, rfl, fun p hpath htmp => Files.replace_of_ne htmp hpath⟩
  | stops _ => exact ⟨rfl, rfl, rfl, fun _ _ _ => rfl⟩
  | orphans _ => exact ⟨rfl, rfl, rfl, fun _ _ _ => rfl⟩
  | records _ => exact ⟨rfl, rfl, rfl, fun _ _ _ => rfl⟩
  | deletes _ _ => exact ⟨rfl, rfl, rfl, fun p hpath _ => Function.update_of_ne hpath ..⟩

/-- **An event keeps what holds of its upload.** -/
theorem StreamInv.react (hu : StreamInv root u files) (h : Reacts root event u files u' files') :
    StreamInv root u' files' := by
  have hne : u.path root ≠ (u.path root).tmp := (StoragePath.tmp_ne _).symm
  obtain ⟨hfile, htmp, hchunks, hsha, hsize, hreceived, hcomplete⟩ := hu
  cases h with
  | rejects n hphase hlarge =>
    rw [hphase] at hfile
    refine ⟨?_, Function.update_self .., hchunks, hsha, hsize, hlarge, fun h => by cases h⟩
    exact (Function.update_of_ne hne ..).trans hfile
  | writes bytes hphase hbytes hsmall =>
    rw [hphase] at hfile hreceived
    have hlength : (u.chunks ++ [bytes]).flatten.length = u.receivedBytes + bytes.length := by
      rw [List.flatten_append, List.length_append, List.flatten_singleton]
      exact congrArg (· + bytes.length) hreceived.symm
    refine ⟨?_, ?_, ?_, ?_, ?_, ?_, fun _ => by simp⟩
    · exact (Files.append_of_ne bytes hne).trans (by rw [hphase]; exact hfile)
    · rw [hphase] at htmp ⊢
      rw [if_pos ⟨rfl, by simp⟩]
      refine (Files.append_self bytes).trans (congrArg some ?_)
      rw [UploadStream.content, List.flatten_append, List.flatten_singleton, htmp]
      congr 1
      by_cases hnil : u.chunks = []
      · rw [if_neg (fun h => h.2 hnil), hnil]
        rfl
      · rw [if_pos ⟨rfl, hnil⟩]
        rfl
    · intro chunk hchunk
      rcases List.mem_append.mp hchunk with hold | hnew
      · exact hchunks chunk hold
      · rw [List.mem_singleton.mp hnew]
        exact hbytes
    · rw [StreamHash.updates, List.foldl_append, hsha]
      rfl
    · exact hlength.trans_le hsmall
    · rw [hphase]
      exact hlength.symm
  | fails hphase =>
    rw [hphase] at hfile hreceived
    refine ⟨?_, Function.update_self .., hchunks, hsha, hsize, hreceived, fun h => by cases h⟩
    exact (Function.update_of_ne hne ..).trans hfile
  | stores hphase hsome =>
    rw [hphase] at htmp hreceived
    have hnil : u.chunks ≠ [] := by
      intro hnil
      rw [htmp, if_neg (fun h => h.2 hnil)] at hsome
      cases hsome
    rw [if_pos ⟨rfl, hnil⟩] at htmp
    refine ⟨?_, Files.replace_source, hchunks, hsha, hsize, hreceived, fun _ => hnil⟩
    exact (Files.replace_target hne.symm).trans htmp
  | stops hphase =>
    rw [hphase] at hfile htmp hreceived
    exact ⟨hfile, htmp, hchunks, hsha, hsize, hreceived, fun h => by cases h⟩
  | orphans hphase =>
    rw [hphase] at hfile htmp hreceived hcomplete
    exact ⟨hfile, htmp, hchunks, hsha, hsize, hreceived, hcomplete⟩
  | records hphase =>
    rw [hphase] at hfile htmp hreceived hcomplete
    exact ⟨hfile, htmp, hchunks, hsha, hsize, hreceived, hcomplete⟩
  | deletes _ hphase =>
    rw [hphase] at htmp hreceived hcomplete
    refine ⟨Function.update_self .., ?_, hchunks, hsha, hsize, hreceived, hcomplete⟩
    exact (Function.update_of_ne hne.symm ..).trans htmp

/-- What holds of an upload depends on its two files. -/
theorem StreamInv.of_files (hu : StreamInv root u files)
    (hpath : files' (u.path root) = files (u.path root))
    (htmp : files' (u.path root).tmp = files (u.path root).tmp) : StreamInv root u files' :=
  ⟨hpath.trans hu.file, htmp.trans hu.tmp, hu.chunks, hu.sha256, hu.size, hu.received, hu.complete⟩

/-- An upload that has come to its end keeps its content, and is deleted by a deletion only. -/
theorem Reacts.of_isComplete (h : Reacts root event u files u' files')
    (hu : u.phase.isComplete = true) :
    u'.phase.isComplete = true ∧ u'.content = u.content ∧ u.phase ≠ .deleted ∧
      (u'.phase = .deleted → event = .delete) := by
  cases h with
  | rejects _ hphase _ => exact absurd hu (by rw [hphase]; decide)
  | writes _ hphase _ _ => exact absurd hu (by rw [hphase]; decide)
  | fails hphase => exact absurd hu (by rw [hphase]; decide)
  | stores hphase _ => exact absurd hu (by rw [hphase]; decide)
  | stops hphase => exact absurd hu (by rw [hphase]; decide)
  | orphans hphase => exact ⟨rfl, rfl, by rw [hphase]; decide, nofun⟩
  | records hphase => exact ⟨rfl, rfl, by rw [hphase]; decide, nofun⟩
  | deletes hevent hphase => exact ⟨rfl, rfl, by rw [hphase]; decide, fun _ => hevent⟩

/-! ## All of them -/

theorem update_eq_some {β : Type} {f : Uuid → Option β} {i j : Uuid} {b b' : β}
    (h : Function.update f i (some b) j = some b') : j = i ∧ b' = b ∨ j ≠ i ∧ f j = some b' := by
  rcases eq_or_ne j i with rfl | hne
  · rw [Function.update_self] at h
    exact .inl ⟨rfl, (Option.some.inj h).symm⟩
  · rw [Function.update_of_ne hne] at h
    exact .inr ⟨hne, h⟩

/-- What holds of the uploads together. -/
structure StreamsInv (root : StoragePath) (s : StreamSys α H.State) : Prop where
  /-- an upload is under its id -/
  keyed : ∀ i u, s.uploads i = some u → u.sessionId = i
  /-- what holds of each -/
  each : ∀ i u, s.uploads i = some u → StreamInv root u s.files
  /-- a file belongs to an upload -/
  accounted : ∀ p, s.files p ≠ none →
    ∃ i u, s.uploads i = some u ∧ (p = u.path root ∨ p = (u.path root).tmp)

variable {s s' : StreamSys α H.State}

theorem StreamsInv.start : StreamsInv root (StreamSys.start : StreamSys α H.State) where
  keyed _ _ h := by cases h
  each _ _ h := by cases h
  accounted _ h := absurd rfl h

/-- What an event of the system does. -/
theorem StreamSys.step_cases {a : Uuid × StreamEvent α} (h : s.step H root a = some s') :
    (∃ org max, s.uploads a.1 = none ∧ s' = {
      files := s.files.remove (uploadPath root org a.1).tmp
      uploads := Function.update s.uploads a.1
        (some ⟨org, a.1, max, 0, H.init, [], .streaming⟩) }) ∨
    ∃ u u' files', s.uploads a.1 = some u ∧ Reacts root a.2 u s.files u' files' ∧
      s' = ⟨files', Function.update s.uploads a.1 (some u')⟩ := by
  obtain ⟨i, event⟩ := a
  have hreact : ∀ event, ((s.uploads i).bind fun u => (u.react H root s.files event).map fun r =>
      (⟨r.2, Function.update s.uploads i (some r.1)⟩ : StreamSys α H.State)) = some s' →
      ∃ u u' files', s.uploads i = some u ∧ Reacts root event u s.files u' files' ∧
        s' = ⟨files', Function.update s.uploads i (some u')⟩ := by
    intro event h
    obtain ⟨u, hu, h⟩ := Option.bind_eq_some_iff.mp h
    obtain ⟨r, hr, rfl⟩ := Option.map_eq_some_iff.mp h
    exact ⟨u, r.1, r.2, hu, reacts_of_react hr, rfl⟩
  cases event with
  | start org max =>
    simp only [StreamSys.step] at h
    split at h
    next hnone =>
      obtain rfl := Option.some.inj h
      exact .inl ⟨org, max, Option.isNone_iff_eq_none.mp hnone, rfl⟩
    next => cases h
  | chunk bytes => exact .inr (hreact _ h)
  | endOfFile => exact .inr (hreact _ h)
  | raises => exact .inr (hreact _ h)
  | crash => exact .inr (hreact _ h)
  | commit => exact .inr (hreact _ h)
  | commitFails => exact .inr (hreact _ h)
  | delete => exact .inr (hreact _ h)

/-- The files of two uploads are different ones. -/
theorem path_ne {v : UploadStream α H.State} (h : v.sessionId ≠ u.sessionId) :
    v.path root ≠ u.path root ∧ v.path root ≠ (u.path root).tmp ∧
      (v.path root).tmp ≠ u.path root ∧ (v.path root).tmp ≠ (u.path root).tmp :=
  ⟨fun heq => h (uploadPath_injective heq).2, fun heq => tmp_uploadPath_ne heq.symm,
    tmp_uploadPath_ne, fun heq => h (tmp_uploadPath_injective heq).2⟩

/-- **An event keeps what holds of the uploads.** -/
theorem StreamsInv.step (hs : StreamsInv root s) {a : Uuid × StreamEvent α}
    (h : s.step H root a = some s') : StreamsInv root s' := by
  rcases StreamSys.step_cases h with ⟨org, max, hnone, rfl⟩ | ⟨u, u', files', hu, hreacts, rfl⟩
  · -- nothing is under the key of a new upload
    have hfree : ∀ p, p = uploadPath root org a.1 ∨ p = (uploadPath root org a.1).tmp →
        s.files p = none := by
      intro p hp
      by_contra hfile
      obtain ⟨i, v, hv, hpath⟩ := hs.accounted p hfile
      have hi : v.sessionId = a.1 := by
        rcases hp with rfl | rfl <;> rcases hpath with hpath | hpath
        · exact (uploadPath_injective hpath).2.symm
        · exact absurd hpath.symm tmp_uploadPath_ne
        · exact absurd hpath tmp_uploadPath_ne
        · exact (tmp_uploadPath_injective hpath).2.symm
      rw [← hs.keyed i v hv, hi, hnone] at hv
      cases hv
    have hremove : s.files.remove (uploadPath root org a.1).tmp = s.files := by
      rw [Files.remove, ← hfree _ (.inr rfl), Function.update_eq_self]
    rw [hremove]
    refine ⟨fun i v hv => ?_, fun i v hv => ?_, fun p hp => ?_⟩
    · rcases update_eq_some hv with ⟨rfl, rfl⟩ | ⟨-, hv⟩
      · rfl
      · exact hs.keyed i v hv
    · rcases update_eq_some hv with ⟨rfl, rfl⟩ | ⟨-, hv⟩
      · refine ⟨hfree _ (.inl rfl), ?_, fun _ h => absurd h List.not_mem_nil, rfl,
          Nat.zero_le _, rfl, fun h => by cases h⟩
        exact (hfree _ (.inr rfl)).trans (if_neg fun h => h.2 rfl).symm
      · exact hs.each i v hv
    · obtain ⟨i, v, hv, hpath⟩ := hs.accounted p hp
      have hne : i ≠ a.1 := by
        rintro rfl
        rw [hnone] at hv
        cases hv
      exact ⟨i, v, (Function.update_of_ne hne ..).trans hv, hpath⟩
  · obtain ⟨hpath, horg, -, hframe⟩ := hreacts.frame
    have hid : u'.sessionId = u.sessionId := (uploadPath_injective hpath).2
    refine ⟨fun i v hv => ?_, fun i v hv => ?_, fun p hp => ?_⟩
    · rcases update_eq_some hv with ⟨rfl, rfl⟩ | ⟨-, hv⟩
      · exact hid.trans (hs.keyed _ u hu)
      · exact hs.keyed i v hv
    · rcases update_eq_some hv with ⟨rfl, rfl⟩ | ⟨hne, hv⟩
      · exact (hs.each _ u hu).react hreacts
      · have hother : v.sessionId ≠ u.sessionId := by
          rw [hs.keyed i v hv, hs.keyed _ u hu]
          exact hne
        obtain ⟨h₁, h₂, h₃, h₄⟩ : _ ∧ _ ∧ _ ∧ _ := path_ne hother
        exact (hs.each i v hv).of_files (hframe _ h₁ h₂) (hframe _ h₃ h₄)
    · by_cases hown : p = u.path root ∨ p = (u.path root).tmp
      · refine ⟨a.1, u', Function.update_self .., ?_⟩
        rw [hpath]
        exact hown
      · rw [not_or] at hown
        change files' p ≠ none at hp
        rw [hframe p hown.1 hown.2] at hp
        obtain ⟨i, v, hv, hvpath⟩ := hs.accounted p hp
        have hne : i ≠ a.1 := by
          rintro rfl
          obtain rfl := Option.some.inj (hu.symm.trans hv)
          exact hvpath.elim hown.1 hown.2
        exact ⟨i, v, (Function.update_of_ne hne ..).trans hv, hvpath⟩

/-- What holds of the uploads holds after a run. -/
theorem StreamsInv.run (hs : StreamsInv root s) {l : List (Uuid × StreamEvent α)}
    (h : runSteps (StreamSys.step H root) s l = some s') : StreamsInv root s' :=
  runSteps_invariant (fun _ _ _ _ hi hstep => hi.step hstep) hs h

/-- What is found under the key of an upload is its file. -/
theorem storageOf_uploadKey (files : Files α) (org i : Uuid) :
    storageOf root files org (uploadKey org i) = files (uploadPath root org i) := by
  rw [storageOf, getObject, target_upload]
  change (files.read _).toOption = _
  cases hfile : files (uploadPath root org i) with
  | none => rw [Files.read_of_none hfile]; rfl
  | some content => rw [Files.read_of_some hfile]; rfl

/-- The upload whose object is found under a key. -/
theorem StreamsInv.exists_of_storageOf (hs : StreamsInv root s) {org i : Uuid} {content : List α}
    (h : storageOf root s.files org (uploadKey org i) = some content) :
    ∃ u, s.uploads i = some u ∧ u.path root = uploadPath root org i ∧
      u.phase.hasFile = true ∧ content = u.content := by
  rw [storageOf_uploadKey] at h
  obtain ⟨j, u, hu, hpath⟩ := hs.accounted (uploadPath root org i) (by rw [h]; simp)
  rcases hpath with hpath | hpath
  · have hid := (uploadPath_injective hpath).2
    rw [← hs.keyed j u hu, ← hid] at hu
    have hfile := (hs.each i u hu).file
    rw [← hpath, h] at hfile
    split at hfile
    next hphase => exact ⟨u, hu, hpath.symm, hphase, Option.some.inj hfile⟩
    next => cases hfile
  · exact absurd hpath.symm tmp_uploadPath_ne

/-- **Nothing or all of it.** In every run of uploads at the same time, what is found under the key
of an upload is the content of this upload from its first chunk to its last; it is not empty and not
larger than what is allowed. -/
theorem storage_complete {l : List (Uuid × StreamEvent α)}
    (hrun : runSteps (StreamSys.step H root) .start l = some s) {org i : Uuid} {content : List α}
    (h : storageOf root s.files org (uploadKey org i) = some content) :
    ∃ u, s.uploads i = some u ∧ u.organizationId = org ∧ u.phase.isComplete = true ∧
      content = u.chunks.flatten ∧ content ≠ [] ∧ content.length ≤ u.maxAllowed ∧
      content.length = u.receivedBytes := by
  have hs : StreamsInv root s := StreamsInv.start.run hrun
  obtain ⟨u, hu, hpath, hphase, rfl⟩ := hs.exists_of_storageOf h
  have hinv := hs.each i u hu
  have hcomplete : u.phase.isComplete = true := StreamPhase.isComplete_iff.mpr (.inl hphase)
  have hnotRejected : u.phase ≠ .rejected := by
    intro hp
    rw [hp] at hphase
    cases hphase
  have hreceived := hinv.received
  rw [if_neg hnotRejected] at hreceived
  refine ⟨u, hu, (uploadPath_injective hpath).1, hcomplete, rfl, fun hnil => ?_, hinv.size,
    hreceived.symm⟩
  obtain ⟨chunk, hchunk⟩ := List.exists_mem_of_ne_nil _ (hinv.complete hcomplete)
  exact hinv.chunks chunk hchunk (List.flatten_eq_nil_iff.mp hnil chunk hchunk)

/-- The hash of the text `abc`. -/
def abcHash : StreamHash ℕ String where
  State := List ℕ
  init := []
  update s bytes := s ++ bytes
  hexdigest s := if s = [97, 98, 99] then
    "ba7816bf8f01cfea414140de5dae2223b00361a396177a9cb410ff61f20015ad" else ""
  update_update s a b := List.append_assoc s a b

/-- Two uploads in turns: the text `abc`, and one that is too large. -/
def twoUploads : List (Uuid × StreamEvent ℕ) :=
  [(1, .start 10 100), (2, .start 20 2), (1, .chunk [97]), (2, .chunk [1, 2, 3]),
    (1, .chunk [98, 99]), (1, .endOfFile), (1, .commit)]

set_option maxRecDepth 4000 in
theorem twoUploads_run : ∃ s, runSteps (StreamSys.step abcHash []) .start twoUploads = some s ∧
    storageOf [] s.files 10 (uploadKey 10 1) = some [97, 98, 99] ∧
    (s.uploads 1).map UploadStream.phase = some .recorded := by
  have hmap : (runSteps (StreamSys.step abcHash []) .start twoUploads).map (fun s =>
      (storageOf [] s.files 10 (uploadKey 10 1), (s.uploads 1).map UploadStream.phase)) =
      some (some [97, 98, 99], some .recorded) := by decide
  obtain ⟨s, hs, heq⟩ := Option.map_eq_some_iff.mp hmap
  obtain ⟨hstorage, hphase⟩ := Prod.mk.inj heq
  exact ⟨s, hs, hstorage, hphase⟩

theorem storage_complete_two : ∃ s content,
    runSteps (StreamSys.step abcHash []) .start twoUploads = some s ∧
      storageOf [] s.files 10 (uploadKey 10 1) = some content ∧
      ∃ u, s.uploads 1 = some u ∧ u.organizationId = 10 ∧ u.phase.isComplete = true ∧
        content = u.chunks.flatten ∧ content ≠ [] ∧ content.length ≤ u.maxAllowed ∧
        content.length = u.receivedBytes := by
  obtain ⟨s, hrun, hstorage, -⟩ := twoUploads_run
  exact ⟨s, _, hrun, hstorage, storage_complete hrun hstorage⟩

/-- What an upload that has come to its end keeps. -/
structure StaysComplete (root : StoragePath) (u u' : UploadStream α H.State) : Prop where
  /-- it has come to its end -/
  complete : u'.phase.isComplete = true
  content : u'.content = u.content
  /-- its file -/
  path : u'.path root = u.path root
  /-- once deleted it stays so -/
  deleted : u.phase = .deleted → u'.phase = .deleted

theorem StaysComplete.refl (h : u.phase.isComplete = true) : StaysComplete root u u :=
  ⟨h, rfl, rfl, id⟩

theorem StaysComplete.trans {u'' : UploadStream α H.State} (h : StaysComplete root u u')
    (h' : StaysComplete root u' u'') : StaysComplete root u u'' :=
  ⟨h'.complete, h'.content.trans h.content, h'.path.trans h.path,
    fun hd => h'.deleted (h.deleted hd)⟩

/-- A step keeps it; only a deletion of the upload deletes it. -/
theorem StreamSys.step_keeps {a : Uuid × StreamEvent α} (h : s.step H root a = some s')
    {i : Uuid} (hu : s.uploads i = some u) (hcomplete : u.phase.isComplete = true) :
    ∃ u', s'.uploads i = some u' ∧ StaysComplete root u u' ∧
      (u'.phase = .deleted → u.phase = .deleted ∨ a = (i, .delete)) := by
  rcases StreamSys.step_cases h with ⟨org, max, hnone, rfl⟩ | ⟨v, v', files', hv, hreacts, rfl⟩
  · have hne : i ≠ a.1 := by
      rintro rfl
      rw [hnone] at hu
      cases hu
    exact ⟨u, (Function.update_of_ne hne ..).trans hu, .refl hcomplete, .inl⟩
  · rcases eq_or_ne i a.1 with rfl | hne
    · obtain rfl := Option.some.inj (hv.symm.trans hu)
      obtain ⟨hphase, hcontent, hdeleted, hevent⟩ := hreacts.of_isComplete hcomplete
      exact ⟨v', Function.update_self .., ⟨hphase, hcontent, hreacts.frame.1,
        fun h => absurd h hdeleted⟩, fun h => .inr (Prod.ext rfl (hevent h))⟩
    · exact ⟨u, (Function.update_of_ne hne ..).trans hu, .refl hcomplete, .inl⟩

theorem StreamSys.run_keeps {l : List (Uuid × StreamEvent α)}
    (h : runSteps (StreamSys.step H root) s l = some s') {i : Uuid} (hu : s.uploads i = some u)
    (hcomplete : u.phase.isComplete = true) :
    ∃ u', s'.uploads i = some u' ∧ StaysComplete root u u' ∧
      (u'.phase = .deleted → u.phase = .deleted ∨ (i, .delete) ∈ l) := by
  refine runSteps_invariant (I := fun t => ∃ u', t.uploads i = some u' ∧ StaysComplete root u u' ∧
      (u'.phase = .deleted → u.phase = .deleted ∨ (i, .delete) ∈ l))
    (fun a ha t t' hi hstep => ?_) ⟨u, hu, .refl hcomplete, .inl⟩ h
  obtain ⟨v, hv, hkeeps, hbefore⟩ := hi
  obtain ⟨v', hv', hkeeps', hnow⟩ := StreamSys.step_keeps hstep hv hkeeps.complete
  refine ⟨v', hv', hkeeps.trans hkeeps', fun hdeleted => ?_⟩
  rcases hnow hdeleted with hv | rfl
  · exact hbefore hv
  · exact .inr ha

/-- **An object does not change.** What is found under the key of an upload is found there ever
after, unless a deletion of this upload comes: whatever else happens to it or to another upload, a
crash included, takes nothing away. And what is deleted does not come back. -/
theorem storage_immutable {l l' : List (Uuid × StreamEvent α)}
    (hrun : runSteps (StreamSys.step H root) .start l = some s)
    (hrun' : runSteps (StreamSys.step H root) s l' = some s') {org i : Uuid} {content : List α}
    (h : storageOf root s.files org (uploadKey org i) = some content) :
    storageOf root s'.files org (uploadKey org i) = some content ∨
      (i, .delete) ∈ l' ∧ ∀ l'' s'', runSteps (StreamSys.step H root) s' l'' = some s'' →
        storageOf root s''.files org (uploadKey org i) = none := by
  have hs : StreamsInv root s := StreamsInv.start.run hrun
  have hs' : StreamsInv root s' := hs.run hrun'
  obtain ⟨u, hu, hpath, hphase, rfl⟩ := hs.exists_of_storageOf h
  have hcomplete : u.phase.isComplete = true := StreamPhase.isComplete_iff.mpr (.inl hphase)
  obtain ⟨u', hu', hkeeps, hevent⟩ := StreamSys.run_keeps hrun' hu hcomplete
  have hfile := (hs'.each i u' hu').file
  rw [hkeeps.path, hpath] at hfile
  rcases StreamPhase.isComplete_iff.mp hkeeps.complete with hhas | hdeleted
  · left
    rw [storageOf_uploadKey, hfile, if_pos hhas, hkeeps.content]
  · have hstored : u.phase ≠ .deleted := by
      intro h
      rw [h] at hphase
      cases hphase
    refine .inr ⟨(hevent hdeleted).resolve_left hstored, fun l'' s'' hrun'' => ?_⟩
    obtain ⟨u'', hu'', hkeeps', -⟩ := StreamSys.run_keeps hrun'' hu' hkeeps.complete
    have hfile'' := ((hs'.run hrun'').each i u'' hu'').file
    rw [hkeeps'.path, hkeeps.path, hpath, hkeeps'.deleted hdeleted] at hfile''
    rw [storageOf_uploadKey, hfile'']
    rfl

set_option maxRecDepth 8000 in
/-- A third upload comes and stops with its process: the first object is there. Then it is deleted,
and gone for good. -/
theorem storage_immutable_two : ∃ s s₁ s₂ content,
    runSteps (StreamSys.step abcHash []) .start twoUploads = some s ∧
      storageOf [] s.files 10 (uploadKey 10 1) = some content ∧
      runSteps (StreamSys.step abcHash []) s [(3, .start 10 5), (3, .chunk [98]), (3, .crash)] =
        some s₁ ∧
      storageOf [] s₁.files 10 (uploadKey 10 1) = some content ∧
      runSteps (StreamSys.step abcHash []) s₁ [(1, .delete), (4, .start 10 5)] = some s₂ ∧
      ∀ l'' s'', runSteps (StreamSys.step abcHash []) s₂ l'' = some s'' →
        storageOf [] s''.files 10 (uploadKey 10 1) = none := by
  obtain ⟨s, hrun, hstorage, -⟩ := twoUploads_run
  have hmap : ((runSteps (StreamSys.step abcHash []) .start twoUploads).bind fun s =>
      (runSteps (StreamSys.step abcHash []) s
        [(3, .start 10 5), (3, .chunk [98]), (3, .crash)]).bind fun s₁ =>
      (runSteps (StreamSys.step abcHash []) s₁ [(1, .delete), (4, .start 10 5)]).map fun s₂ =>
        storageOf [] s₂.files 10 (uploadKey 10 1)) = some none := by decide
  rw [hrun, Option.bind_some] at hmap
  obtain ⟨s₁, hrun₁, hmap⟩ := Option.bind_eq_some_iff.mp hmap
  obtain ⟨s₂, hrun₂, hgone⟩ := Option.map_eq_some_iff.mp hmap
  have hstays := (storage_immutable hrun hrun₁ hstorage).resolve_right fun h => by simp at h
  have hrun' : runSteps (StreamSys.step abcHash []) .start
      (twoUploads ++ [(3, .start 10 5), (3, .chunk [98]), (3, .crash)]) = some s₁ := by
    rw [runSteps_append, hrun, Option.bind_some, hrun₁]
  have hdeleted := (storage_immutable hrun' hrun₂ hstays).resolve_left fun h => by
    rw [hgone] at h
    cases h
  exact ⟨s, s₁, s₂, _, hrun, hstorage, hrun₁, hstays, hrun₂, hdeleted.2⟩

/-- **What is recorded is what is found.** As long as the object of a session that is recorded is
not deleted, `finalize_upload` recomputes the hash and the size that the session has. -/
theorem recorded_verified {l : List (Uuid × StreamEvent α)}
    (hrun : runSteps (StreamSys.step H root) .start l = some s) {i : Uuid}
    (hu : s.uploads i = some u) (hphase : u.phase = .recorded) :
    computeHashAndSize H root s.files u.organizationId (uploadKey u.organizationId i) =
      .ok (H.hexdigest u.sha256, u.receivedBytes) := by
  have hs : StreamsInv root s := StreamsInv.start.run hrun
  have hinv := hs.each i u hu
  have hid := hs.keyed i u hu
  have hfile := hinv.file
  have hreceived := hinv.received
  rw [hphase] at hfile hreceived
  have hchunks : u.chunks ≠ [] := hinv.complete (by rw [hphase]; rfl)
  rw [UploadStream.path, hid] at hfile
  rw [computeHashAndSize, getObject, target_upload]
  change (s.files.read _).bind _ = _
  rw [Files.read_of_some hfile]
  -- both hashes are that of the concatenation
  have hread : readInChunks 65536 u.content ≠ [] := by
    intro hnil
    have hflat := flatten_readInChunks (n := 65536) (by decide) u.content
    rw [hnil] at hflat
    obtain ⟨chunk, hchunk⟩ := List.exists_mem_of_ne_nil _ hchunks
    exact hinv.chunks chunk hchunk (List.flatten_eq_nil_iff.mp hflat.symm chunk hchunk)
  have hhash : H.updates (readInChunks 65536 u.content) = u.sha256 := by
    rw [H.updates_eq hread, flatten_readInChunks (by decide), hinv.sha256, H.updates_eq hchunks]
    rfl
  change Except.ok (H.hexdigest (H.updates (readInChunks 65536 u.content)), u.content.length) = _
  rw [hhash]
  exact congrArg (fun n => Except.ok (H.hexdigest u.sha256, n)) hreceived.symm

theorem recorded_verified_two : ∃ s u,
    runSteps (StreamSys.step abcHash []) .start twoUploads = some s ∧ s.uploads 1 = some u ∧
      computeHashAndSize abcHash [] s.files u.organizationId (uploadKey u.organizationId 1) =
        .ok (abcHash.hexdigest u.sha256, u.receivedBytes) := by
  obtain ⟨s, hrun, -, hphase⟩ := twoUploads_run
  obtain ⟨u, hu, hphase⟩ := Option.map_eq_some_iff.mp hphase
  exact ⟨s, u, hrun, hu, recorded_verified hrun hu hphase⟩

/-- **Every file is accounted for.** A file is the object of an upload that has come to its end, or
the temporary file of one that is under way or was stopped with its process; a refused upload leaves
none. No file is larger than what its upload is allowed. -/
theorem files_accounted {l : List (Uuid × StreamEvent α)}
    (hrun : runSteps (StreamSys.step H root) .start l = some s) {p : StoragePath}
    {content : List α} (h : s.files p = some content) :
    ∃ i u, s.uploads i = some u ∧ content = u.chunks.flatten ∧ content.length ≤ u.maxAllowed ∧
      (p = u.path root ∧ u.phase.hasFile = true ∨
        p = (u.path root).tmp ∧ (u.phase = .streaming ∨ u.phase = .crashed)) := by
  have hs : StreamsInv root s := StreamsInv.start.run hrun
  obtain ⟨i, u, hu, hpath⟩ := hs.accounted p (by rw [h]; simp)
  have hinv := hs.each i u hu
  rcases hpath with rfl | rfl
  · have hfile := hinv.file
    rw [h] at hfile
    split at hfile
    next hphase =>
      obtain rfl := Option.some.inj hfile
      exact ⟨i, u, hu, rfl, hinv.size, .inl ⟨rfl, hphase⟩⟩
    next => cases hfile
  · have htmp := hinv.tmp
    rw [h] at htmp
    split at htmp
    next hphase =>
      obtain rfl := Option.some.inj htmp
      have hwhich : u.phase = .streaming ∨ u.phase = .crashed := by
        have hhas := hphase.1
        cases hp : u.phase <;> rw [hp] at hhas <;>
          first | exact .inl rfl | exact .inr rfl | cases hhas
      exact ⟨i, u, hu, rfl, hinv.size, .inr ⟨rfl, hwhich⟩⟩
    next => cases htmp

theorem files_accounted_two : ∃ s p content,
    runSteps (StreamSys.step abcHash []) .start twoUploads = some s ∧ s.files p = some content ∧
      ∃ i u, s.uploads i = some u ∧ content = u.chunks.flatten ∧ content.length ≤ u.maxAllowed ∧
        (p = u.path [] ∧ u.phase.hasFile = true ∨
          p = (u.path []).tmp ∧ (u.phase = .streaming ∨ u.phase = .crashed)) := by
  obtain ⟨s, hrun, hstorage, -⟩ := twoUploads_run
  rw [storageOf_uploadKey] at hstorage
  exact ⟨s, _, _, hrun, hstorage, files_accounted hrun hstorage⟩

end System

end FinanceIntelligence
