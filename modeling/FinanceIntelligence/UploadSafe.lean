import FinanceIntelligence.UploadDiscipline
import Mathlib.Data.List.Pairwise

/-!
# The upload code keeps its discipline

First the commits, one by one: what their statements make of contents that are well formed. Then
the programs: what a call knows at each of its instructions, whatever the others do.

A lemma about a commit names what it needs to know of the contents; a lemma about a program shows
that the locks it holds give just that.
-/

namespace FinanceIntelligence

open UploadProg UploadStmt

variable {B : Type}

/-! ## Objects -/

namespace UploadsWell

variable {f : B → String} {d : UploadDb B}

theorem eq_of_id (h : UploadsWell f d) {o o' : StoredObject} (ho : o ∈ d.objects)
    (ho' : o' ∈ d.objects) (hid : o.id = o'.id) : o = o' := by
  by_contra hne
  have : Std.Symm fun o o' : StoredObject => o.id ≠ o'.id := ⟨fun _ _ => Ne.symm⟩
  exact h.uniqueId.forall ho ho' hne hid

theorem eq_of_hash (h : UploadsWell f d) {o o' : StoredObject} (ho : o ∈ d.objects)
    (ho' : o' ∈ d.objects) (horg : o.organizationId = o'.organizationId)
    (hsha : o.serverComputedSha256 = o'.serverComputedSha256) : o = o' := by
  by_contra hne
  have : Std.Symm fun o o' : StoredObject => ¬ (o.organizationId = o'.organizationId ∧
      o.serverComputedSha256 = o'.serverComputedSha256) :=
    ⟨fun _ _ hxy hyx => hxy ⟨hyx.1.symm, hyx.2.symm⟩⟩
  exact h.uniqueHash.forall ho ho' hne ⟨horg, hsha⟩

end UploadsWell

theorem StoredObject.sameContent_iff {o x : StoredObject} : o.sameContent x = true ↔
    x.organizationId = o.organizationId ∧ x.serverComputedSha256 = o.serverComputedSha256 := by
  simp [StoredObject.sameContent]

/-- An object is there or not when a finalization comes for it, and this is what it gets. -/
inductive Acquired (objects : List StoredObject) (u : StoredObject) (storedObject : StoredObject) :
    Prop where
  /-- the object is new -/
  | created (hnew : ∀ x ∈ objects, u.sameContent x = false) (heq : storedObject = u)
  /-- the object was there -/
  | there (o : StoredObject) (ho : o ∈ objects) (hsame : u.sameContent o = true)
      (heq : storedObject = { o with referenceCount := o.referenceCount + 1 })

theorem UploadDb.objectOf_eq_some {d : UploadDb B} {org : Uuid} {sha : String} {o : StoredObject}
    (h : d.objectOf org sha = some o) :
    o ∈ d.objects ∧ o.organizationId = org ∧ o.serverComputedSha256 = sha := by
  have hfound := List.find?_some h
  simp only [Bool.and_eq_true, beq_iff_eq] at hfound
  exact ⟨List.mem_of_find?_eq_some h, hfound⟩

theorem UploadDb.object_eq_some {d : UploadDb B} {org id : Uuid} {o : StoredObject}
    (h : d.object org id = some o) : o ∈ d.objects ∧ o.id = id ∧ o.organizationId = org := by
  have hfound := List.find?_some h
  simp only [Bool.and_eq_true, beq_iff_eq] at hfound
  exact ⟨List.mem_of_find?_eq_some h, hfound⟩

theorem UploadDb.version_eq_some {d : UploadDb B} {org id : Uuid} {v : UploadedVersion}
    (h : d.version org id = some v) : v ∈ d.versions ∧ v.id = id ∧ v.organizationId = org := by
  have hfound := List.find?_some h
  simp only [Bool.and_eq_true, beq_iff_eq] at hfound
  exact ⟨List.mem_of_find?_eq_some h, hfound⟩

/-- What the insertion leaves under the hash. -/
theorem acquired_of_upserted {u storedObject : StoredObject} {l : List StoredObject}
    (ho : storedObject ∈ upserted u l) (hsame : u.sameContent storedObject = true) :
    Acquired l u storedObject := by
  rw [upserted] at ho
  split at ho
  · obtain ⟨x, hx, rfl⟩ := List.mem_map.mp ho
    by_cases hc : u.sameContent x = true
    · rw [if_pos hc]
      exact .there x hx hc rfl
    · rw [if_neg hc] at hsame
      exact absurd hsame hc
  · rename_i hnone
    have hnew : ∀ x ∈ l, u.sameContent x = false := by simpa using hnone
    rcases List.mem_append.mp ho with ho | ho
    · rw [hnew _ ho] at hsame
      cases hsame
    · exact .created hnew (List.mem_singleton.mp ho)

/-- It depends on the objects under the hash only. -/
theorem Acquired.of_iff {l l' : List StoredObject} {u storedObject : StoredObject}
    (h : Acquired l u storedObject) (hl : ∀ o, u.sameContent o = true → (o ∈ l' ↔ o ∈ l)) :
    Acquired l' u storedObject := by
  cases h with
  | created hnew heq =>
    refine .created (fun x hx => ?_) heq
    by_contra hc
    rw [Bool.not_eq_false] at hc
    have := hnew x ((hl x hc).mp hx)
    rw [hc] at this
    cases this
  | there o ho hsame heq => exact .there o ((hl o hsame).mpr ho) hsame heq

/-- The insertion leaves the objects with another hash alone. -/
theorem mem_upserted {u o : StoredObject} {l : List StoredObject}
    (hsame : u.sameContent o = false) : o ∈ upserted u l ↔ o ∈ l := by
  rw [upserted]
  split
  · constructor
    · intro ho
      obtain ⟨x, hx, rfl⟩ := List.mem_map.mp ho
      by_cases hc : u.sameContent x = true
      · rw [if_pos hc] at hsame
        rw [show u.sameContent { x with referenceCount := x.referenceCount + 1 } =
          u.sameContent x from rfl, hc] at hsame
        cases hsame
      · rwa [if_neg hc]
    · exact fun ho => List.mem_map.mpr ⟨o, ho, by rw [hsame]; rfl⟩
  · rw [List.mem_append, List.mem_singleton]
    refine or_iff_left ?_
    rintro rfl
    rw [(StoredObject.sameContent_iff).mpr ⟨rfl, rfl⟩] at hsame
    cases hsame

/-- The same object, apart from the count. -/
structure StoredObject.Same (o o' : StoredObject) : Prop where
  id : o'.id = o.id
  organizationId : o'.organizationId = o.organizationId
  serverComputedSha256 : o'.serverComputedSha256 = o.serverComputedSha256
  opaqueObjectKey : o'.opaqueObjectKey = o.opaqueObjectKey

theorem StoredObject.Same.refl (o : StoredObject) : o.Same o := ⟨rfl, rfl, rfl, rfl⟩

/-! ## Commits -/

section Commits

variable {cfg : UploadConfig B} {d : UploadDb B}

/-- Recounting keeps the contents well formed. -/
theorem UploadsWell.recount (h : UploadsWell cfg.sha256 d) {f : StoredObject → StoredObject}
    (hf : ∀ o : StoredObject, o.Same (f o)) :
    UploadsWell cfg.sha256 { d with objects := d.objects.map f } where
  keyed := h.keyed
  ownKey := h.ownKey
  uniqueHash := by
    refine List.pairwise_map.mpr (h.uniqueHash.imp fun {o o'} hne => ?_)
    rwa [(hf o).organizationId, (hf o').organizationId, (hf o).serverComputedSha256,
      (hf o').serverComputedSha256]
  uniqueId := by
    refine List.pairwise_map.mpr (h.uniqueId.imp fun {o o'} hne => ?_)
    rwa [(hf o).id, (hf o').id]
  stored o ho := by
    obtain ⟨x, hx, rfl⟩ := List.mem_map.mp ho
    rw [(hf x).organizationId, (hf x).opaqueObjectKey, (hf x).serverComputedSha256]
    exact h.stored x hx
  finalized o ho := by
    obtain ⟨x, hx, rfl⟩ := List.mem_map.mp ho
    rw [(hf x).opaqueObjectKey]
    exact h.finalized x hx
  uniqueVersion := h.uniqueVersion
  refers v hv := by
    obtain ⟨o, ho, hid, horg⟩ := h.refers v hv
    exact ⟨f o, List.mem_map_of_mem ho, (hf o).id.trans hid, (hf o).organizationId.trans horg⟩

/-- Recounting keeps the sessions and the identities. -/
theorem UploadsEvolve.recount {f : StoredObject → StoredObject}
    (hf : ∀ o : StoredObject, o.Same (f o)) :
    UploadsEvolve d { d with objects := d.objects.map f } where
  finalized _ _ h _ := h
  uploaded _ _ h _ := ⟨h, fun _ _ => rfl⟩
  sessions _ h := h
  objects o ho := ⟨f o, List.mem_map_of_mem ho, (hf o).id, (hf o).organizationId,
    (hf o).serverComputedSha256, (hf o).opaqueObjectKey⟩
  keys i row k _ _ _ hno o ho := by
    obtain ⟨x, hx, rfl⟩ := List.mem_map.mp ho
    rw [(hf x).opaqueObjectKey]
    exact hno x hx

/-- The status of one session is set. -/
theorem UploadsWell.setStatus (h : UploadsWell cfg.sha256 d) {i : Uuid} {st : UploadStatus}
    (hkeys : st = .finalized ∨ ∀ o ∈ d.objects, ∀ row, d.sessions i = some row →
      row.temporaryObjectKey ≠ some o.opaqueObjectKey) :
    UploadsWell cfg.sha256 (UploadStmt.apply (.setSessionStatus i st) d) := by
  -- a session is as it was, or the one whose status is set
  have hrow : ∀ j row', (UploadStmt.apply (.setSessionStatus i st) d).sessions j = some row' →
      ∃ row, d.sessions j = some row ∧ row'.temporaryObjectKey = row.temporaryObjectKey ∧
        row'.id = row.id ∧ (row' = row ∨ j = i ∧ row'.status = st) := by
    intro j row' hj
    simp only [UploadStmt.apply] at hj
    split at hj
    · obtain ⟨row, hrow, rfl⟩ := Option.map_eq_some_iff.mp hj
      exact ⟨row, hrow, rfl, rfl, .inr ⟨‹_›, rfl⟩⟩
    · exact ⟨row', hj, rfl, rfl, .inl rfl⟩
  refine ⟨?_, ?_, h.uniqueHash, h.uniqueId, h.stored, ?_, h.uniqueVersion, h.refers⟩
  · intro j row' hj
    obtain ⟨row, hj', -, hid, -⟩ := hrow j row' hj
    rw [hid]
    exact h.keyed j row hj'
  · intro j₁ j₂ row₁ row₂ k h₁ h₂ hk₁ hk₂
    obtain ⟨row₁', h₁', hkey₁, -, -⟩ := hrow _ _ h₁
    obtain ⟨row₂', h₂', hkey₂, -, -⟩ := hrow _ _ h₂
    exact h.ownKey _ _ _ _ k h₁' h₂' (hkey₁ ▸ hk₁) (hkey₂ ▸ hk₂)
  · intro o ho j row' hj hk
    obtain ⟨row, hj', hkey, -, rfl | ⟨rfl, hstatus⟩⟩ := hrow _ _ hj
    · exact h.finalized o ho j _ hj' hk
    · rcases hkeys with rfl | hkeys
      · exact hstatus
      · exact absurd (hkey ▸ hk) (hkeys o ho row hj')

/-- The status of a session that is not finalized is set, to one that is not UPLOADED. -/
theorem UploadsEvolve.setStatus {i : Uuid} {st : UploadStatus} (hst : st ≠ .uploaded)
    (hi : ∀ row, d.sessions i = some row → row.status ≠ .finalized) :
    UploadsEvolve d (UploadStmt.apply (.setSessionStatus i st) d) where
  finalized j row hj hf := by
    have hji : j ≠ i := by
      rintro rfl
      exact hi row hj hf
    simp only [UploadStmt.apply, if_neg hji, hj]
  uploaded j row hj hu := by
    simp only [UploadStmt.apply] at hj
    split at hj
    · obtain ⟨row', -, rfl⟩ := Option.map_eq_some_iff.mp hj
      exact absurd hu hst
    · exact ⟨hj, fun _ _ => rfl⟩
  sessions j hj := by
    simp only [UploadStmt.apply]
    split
    · rwa [Option.isSome_map]
    · exact hj
  objects o ho := ⟨o, ho, rfl, rfl, rfl, rfl⟩
  keys _ _ _ _ _ _ h := h

/-- What a commit owes the others. -/
structure LawfulCommit (cfg : UploadConfig B) (c : UploadCall) (held : Set UploadRow)
    (d d' : UploadDb B) : Prop where
  /-- what is locked by others stays -/
  agree : ∀ r, r ∉ held → r.Agree d d'
  /-- the contents stay well formed -/
  well : UploadsWell cfg.sha256 d'
  /-- they change as the call may change them -/
  step : UploadStep c d d'

/-- Counts that follow the versions stay when neither changes. -/
theorem CountsFollow.of_eq {d' : UploadDb B} (ho : d'.objects = d.objects)
    (hv : d'.versions = d.versions) : CountsFollow d d' := by
  intro o hmem
  rw [ho] at hmem
  exact .inr ⟨o, hmem, rfl, by rw [UploadDb.versionCount, UploadDb.versionCount, hv]⟩

/-- An upload session expires. -/
theorem LawfulCommit.expire (hd : UploadsWell cfg.sha256 d) {org user i : Uuid}
    {row : UploadSession} {held : Set UploadRow} (hheld : UploadRow.session i ∈ held)
    (hrow : d.sessions i = some row) (hstatus : row.status ≠ .finalized) :
    LawfulCommit cfg (.finalizeUpload org i user) held d
      (UploadStmt.apply (.setSessionStatus i .expired) d) where
  agree r hr := by
    cases r with
    | session j =>
      have hji : j ≠ i := by
        rintro rfl
        exact hr hheld
      exact ⟨by simp only [UploadStmt.apply, if_neg hji], fun _ _ _ _ _ => rfl⟩
    | object org' sha => exact fun _ _ _ => Iff.rfl
    | version j => exact fun _ _ => Iff.rfl
  well := by
    refine hd.setStatus (.inr fun o ho row' hrow' hk => ?_)
    obtain rfl := Option.some.inj (hrow.symm.trans hrow')
    exact hstatus (hd.finalized o ho i row hrow hk)
  step := by
    refine ⟨.setStatus nofun fun row' hrow' => ?_, .of_eq rfl rfl, fun row' hrow' => ?_⟩
    · rwa [← Option.some.inj (hrow.symm.trans hrow')]
    · simp only [UploadStmt.apply, if_true, hrow, Option.map_some, Option.some.injEq] at hrow'
      rw [← hrow']
      nofun

/-- The bytes of a duplicate are deleted. -/
theorem LawfulCommit.deleteObject (hd : UploadsWell cfg.sha256 d) {org user i : Uuid} {key : String}
    {row : UploadSession} {held : Set UploadRow} (hrow : d.sessions i = some row)
    (hstatus : row.status = .finalized) (hkey : row.temporaryObjectKey = some key)
    (hfree : ∀ o ∈ d.objects, o.opaqueObjectKey ≠ key) :
    LawfulCommit cfg (.finalizeUpload org i user) held d
      (UploadStmt.apply (.deleteObject org key) d) := by
  -- the bytes under other keys stay
  have hstorage : ∀ org' k, k ≠ key →
      (UploadStmt.apply (.deleteObject org key) d).storage org' k = d.storage org' k := by
    intro org' k hk
    simp only [UploadStmt.apply, hk, and_false, if_false]
  have hother : ∀ j row' k, d.sessions j = some row' → row'.status ≠ .finalized →
      row'.temporaryObjectKey = some k → k ≠ key := by
    rintro j row' k hj hstatus' hk rfl
    obtain rfl := hd.ownKey i j row row' k hrow hj hkey hk
    obtain rfl := Option.some.inj (hrow.symm.trans hj)
    exact hstatus' hstatus
  refine ⟨fun r _ => ?_, ?_, ?_, .of_eq rfl rfl, ?_⟩
  · cases r with
    | session j => exact ⟨rfl, fun row' k hj hs hk => hstorage _ _ (hother j row' k hj hs hk)⟩
    | object org' sha => exact fun _ _ _ => Iff.rfl
    | version j => exact fun _ _ => Iff.rfl
  · refine { hd with stored := fun o ho => ?_ }
    rw [hstorage _ _ (hfree o ho)]
    exact hd.stored o ho
  · exact {
      finalized := fun _ _ h _ => h
      uploaded := fun j row' hj hu =>
        ⟨hj, fun k hk => hstorage _ _ (hother j row' k hj (by rw [hu]; nofun) hk)⟩
      sessions := fun _ h => h
      objects := fun o ho => ⟨o, ho, rfl, rfl, rfl, rfl⟩
      keys := fun _ _ _ _ _ _ h => h }
  · intro row' hrow'
    obtain rfl := Option.some.inj (hrow.symm.trans hrow')
    rw [hstatus]
    nofun

theorem same_recounted (o : StoredObject) (n : ℕ) (x : StoredObject) :
    x.Same (if x.id = o.id then { x with referenceCount := n } else x) := by
  split
  · exact ⟨rfl, rfl, rfl, rfl⟩
  · exact .refl x

/-- The objects under another hash are not recounted. -/
theorem mem_recounted {o x : StoredObject} {n : ℕ} {l : List StoredObject}
    (hl : ∀ y ∈ l, y.id = o.id → o.sameContent y = true) (hx : o.sameContent x = false) :
    x ∈ recounted o n l ↔ x ∈ l := by
  constructor
  · intro h
    obtain ⟨y, hy, rfl⟩ := List.mem_map.mp h
    by_cases hid : y.id = o.id
    · have hsame := hl y hy hid
      rw [if_pos hid, show o.sameContent { y with referenceCount := n } = o.sameContent y from rfl,
        hsame] at hx
      cases hx
    · rwa [if_neg hid]
  · intro h
    refine List.mem_map.mpr ⟨x, h, if_neg fun hid => ?_⟩
    rw [hl x h hid] at hx
    cases hx

/-- What the lock on the object leaves to the others when it is recounted. -/
theorem agree_recounted (hd : UploadsWell cfg.sha256 d) {o : StoredObject} {n : ℕ}
    {held : Set UploadRow} (ho : o ∈ d.objects)
    (hheld : UploadRow.object o.organizationId o.serverComputedSha256 ∈ held) {org : Uuid}
    {sha : String} (hr : UploadRow.object org sha ∉ held) (x : StoredObject)
    (horg : x.organizationId = org) (hsha : x.serverComputedSha256 = sha) :
    x ∈ recounted o n d.objects ↔ x ∈ d.objects := by
  refine mem_recounted (fun y hy hid => ?_) ?_
  · rw [hd.eq_of_id hy ho hid]
    exact StoredObject.sameContent_iff.mpr ⟨rfl, rfl⟩
  · by_contra hc
    rw [Bool.not_eq_false, StoredObject.sameContent_iff, horg, hsha] at hc
    rw [hc.1, hc.2] at hr
    exact hr hheld

/-- An object is recounted. -/
theorem LawfulCommit.reconcile (hd : UploadsWell cfg.sha256 d) {org id : Uuid} {o : StoredObject}
    {n : ℕ} {held : Set UploadRow} (ho : o ∈ d.objects) (hid : o.id = id)
    (horg : o.organizationId = org)
    (hheld : UploadRow.object o.organizationId o.serverComputedSha256 ∈ held) :
    LawfulCommit cfg (.reconcile org id) held d (UploadStmt.apply (.setReferenceCount o n) d) where
  agree r hr := by
    cases r with
    | session j => exact ⟨rfl, fun _ _ _ _ _ => rfl⟩
    | object org' sha => exact agree_recounted hd ho hheld hr
    | version j => exact fun _ _ => Iff.rfl
  well := hd.recount (same_recounted o n)
  step := ⟨.recount (same_recounted o n), ⟨rfl, o, ho, hid, horg⟩, trivial⟩

/-- Deleting one of several versions with different ids. -/
theorem countP_filter_id {l : List UploadedVersion} (hl : l.Pairwise fun v v' => v.id ≠ v'.id)
    {v : UploadedVersion} (hv : v ∈ l) (p : UploadedVersion → Bool) :
    l.countP p = (l.filter fun x => x.id != v.id).countP p + if p v then 1 else 0 := by
  induction l with
  | nil => cases hv
  | cons x l ih =>
    obtain ⟨hx, hl⟩ := List.pairwise_cons.mp hl
    by_cases hid : x.id = v.id
    · -- it is the first one, and the others stay
      obtain rfl : v = x := by
        rcases List.mem_cons.mp hv with rfl | hv
        · rfl
        · exact absurd hid (hx v hv)
      have hrest : l.filter (fun x => x.id != v.id) = l :=
        List.filter_eq_self.mpr fun y hy => by simpa using Ne.symm (hx y hy)
      rw [List.filter_cons_of_neg (by simp), hrest, List.countP_cons]
    · have hv' : v ∈ l := (List.mem_cons.mp hv).resolve_left fun h => hid (by rw [h])
      rw [List.filter_cons_of_pos (by simpa using hid), List.countP_cons, List.countP_cons,
        ih hl hv']
      omega

/-- A version is deleted, and its reference given back. -/
theorem LawfulCommit.releaseVersion (hd : UploadsWell cfg.sha256 d) {org id : Uuid}
    {v : UploadedVersion} {o : StoredObject} {held : Set UploadRow} (hv : v ∈ d.versions)
    (ho : o ∈ d.objects)
    (hid : o.id = v.storedObjectId) (hpos : 0 < o.referenceCount)
    (hversion : UploadRow.version v.id ∈ held)
    (hheld : UploadRow.object o.organizationId o.serverComputedSha256 ∈ held) :
    LawfulCommit cfg (.releaseVersion org id) held d
      (UploadStmt.apply (.setReferenceCount o (o.referenceCount - 1))
        (UploadStmt.apply (.deleteVersion v.id) d)) where
  agree r hr := by
    cases r with
    | session j => exact ⟨rfl, fun _ _ _ _ _ => rfl⟩
    | object org' sha => exact agree_recounted hd ho hheld hr
    | version j =>
      intro x hx
      refine List.mem_filter.trans (and_iff_left ?_)
      have hne : x.id ≠ v.id := by
        rintro hxv
        rw [← hx, hxv] at hr
        exact hr hversion
      simpa using hne
  well := by
    have hrecount := hd.recount (same_recounted o (o.referenceCount - 1))
    exact { hrecount with
      uniqueVersion := hd.uniqueVersion.sublist List.filter_sublist
      refers := fun x hx => hrecount.refers x (List.mem_of_mem_filter hx) }
  step := by
    refine ⟨?_, fun o' ho' => .inr ?_, trivial⟩
    · have h := UploadsEvolve.recount (d := d) (same_recounted o (o.referenceCount - 1))
      exact ⟨h.finalized, h.uploaded, h.sessions, h.objects, h.keys⟩
    · obtain ⟨x, hx, rfl⟩ := List.mem_map.mp ho'
      have hcount := countP_filter_id hd.uniqueVersion hv fun y => y.storedObjectId == x.id
      refine ⟨x, hx, ((same_recounted o _ x).id).symm, ?_⟩
      rw [(same_recounted o _ x).id]
      change _ + d.versions.countP (fun y => y.storedObjectId == x.id) =
        _ + (d.versions.filter fun y => y.id != v.id).countP fun y => y.storedObjectId == x.id
      rw [hcount]
      by_cases hxo : x.id = o.id
      · obtain rfl := hd.eq_of_id hx ho hxo
        rw [if_pos rfl, if_pos (by rw [hid]; exact beq_self_eq_true _)]
        dsimp only
        omega
      · have hne : ¬ (v.storedObjectId == x.id) = true := by
          rw [← hid, beq_iff_eq]
          exact Ne.symm hxo
        rw [if_neg hxo, if_neg hne]
        rfl

theorem same_upserted (u x : StoredObject) :
    x.Same (if u.sameContent x then { x with referenceCount := x.referenceCount + 1 } else x) := by
  split
  · exact ⟨rfl, rfl, rfl, rfl⟩
  · exact .refl x

/-- What the insertion checks of a new object. -/
theorem fresh_of_check_upsert {u : StoredObject}
    (hcheck : (UploadStmt.upsertObject u).check d = true)
    (hnew : ∀ x ∈ d.objects, u.sameContent x = false) :
    ∀ x ∈ d.objects, x.id ≠ u.id ∧ x.opaqueObjectKey ≠ u.opaqueObjectKey := by
  intro x hx
  have hany : d.objects.any u.sameContent = false := by
    simpa using hnew
  simp only [UploadStmt.check, hany, Bool.false_or, List.all_eq_true, Bool.and_eq_true,
    bne_iff_ne] at hcheck
  exact hcheck x hx

theorem upserted_of_new {u : StoredObject} {l : List StoredObject}
    (hnew : ∀ x ∈ l, u.sameContent x = false) : upserted u l = l ++ [u] := by
  rw [upserted, if_neg]
  simpa using hnew

theorem upserted_of_mem {u o : StoredObject} {l : List StoredObject} (ho : o ∈ l)
    (hsame : u.sameContent o = true) : upserted u l = l.map fun x =>
      if u.sameContent x then { x with referenceCount := x.referenceCount + 1 } else x := by
  rw [upserted, if_pos (List.any_eq_true.mpr ⟨o, ho, hsame⟩)]

/-- An object with its bytes, of a session that is finalized, is added or found. -/
theorem UploadsWell.upsert (h : UploadsWell cfg.sha256 d) {u storedObject : StoredObject}
    (hacq : Acquired d.objects u storedObject)
    (hcheck : (UploadStmt.upsertObject u).check d = true)
    (hstored : ∃ bytes, d.storage u.organizationId u.opaqueObjectKey = some bytes ∧
      cfg.sha256 bytes = u.serverComputedSha256)
    (hfinal : ∀ i row, d.sessions i = some row →
      row.temporaryObjectKey = some u.opaqueObjectKey → row.status = .finalized) :
    UploadsWell cfg.sha256 { d with objects := upserted u d.objects } := by
  cases hacq with
  | there o ho hsame heq =>
    rw [upserted_of_mem ho hsame]
    exact h.recount (same_upserted u)
  | created hnew heq =>
    have hfresh := fresh_of_check_upsert hcheck hnew
    rw [upserted_of_new hnew]
    refine { h with uniqueHash := ?_, uniqueId := ?_, stored := ?_, finalized := ?_, refers := ?_ }
    · refine List.pairwise_append.mpr ⟨h.uniqueHash, List.pairwise_singleton _ _, ?_⟩
      intro x hx y hy hxy
      obtain rfl := List.mem_singleton.mp hy
      have := hnew x hx
      rw [StoredObject.sameContent_iff.mpr hxy] at this
      cases this
    · refine List.pairwise_append.mpr ⟨h.uniqueId, List.pairwise_singleton _ _, ?_⟩
      intro x hx y hy
      rw [List.mem_singleton.mp hy]
      exact (hfresh x hx).1
    · intro x hx
      rcases List.mem_append.mp hx with hx | hx
      · exact h.stored x hx
      · rw [List.mem_singleton.mp hx]
        exact hstored
    · intro x hx
      rcases List.mem_append.mp hx with hx | hx
      · exact h.finalized x hx
      · rw [List.mem_singleton.mp hx]
        exact hfinal
    · intro v hv
      obtain ⟨o, ho, hid⟩ := h.refers v hv
      exact ⟨o, List.mem_append_left _ ho, hid⟩

/-- The object that was acquired is there. -/
theorem Acquired.mem {l : List StoredObject} {u storedObject : StoredObject}
    (h : Acquired l u storedObject) : storedObject ∈ upserted u l := by
  cases h with
  | created hnew heq =>
    rw [upserted_of_new hnew, heq]
    exact List.mem_append_right _ List.mem_cons_self
  | there o ho hsame heq =>
    rw [upserted_of_mem ho hsame]
    exact List.mem_map.mpr ⟨o, ho, by rw [if_pos hsame, heq]⟩

theorem Acquired.organizationId {l : List StoredObject} {u storedObject : StoredObject}
    (h : Acquired l u storedObject) : storedObject.organizationId = u.organizationId := by
  cases h with
  | created hnew heq => rw [heq]
  | there o ho hsame heq => rw [heq, (StoredObject.sameContent_iff.mp hsame).1]

/-- The counts after a finalization: the object that was acquired has one more version. -/
theorem CountsFollow.finalize (hd : UploadsWell cfg.sha256 d) {u storedObject : StoredObject}
    (hacq : Acquired d.objects u storedObject)
    (hcheck : (UploadStmt.upsertObject u).check d = true) (hcount : u.referenceCount = 1)
    {v : UploadedVersion} (hv : v.storedObjectId = storedObject.id) {d' : UploadDb B}
    (ho' : d'.objects = upserted u d.objects) (hv' : d'.versions = d.versions ++ [v]) :
    CountsFollow d d' := by
  have hversions (id : Uuid) : d'.versionCount id =
      d.versionCount id + if storedObject.id = id then 1 else 0 := by
    rw [UploadDb.versionCount, UploadDb.versionCount, hv', List.countP_append,
      List.countP_singleton, hv]
    simp only [beq_iff_eq]
  intro o' hmem
  rw [hversions]
  cases hacq with
  | created hnew heq =>
    have hfresh := fresh_of_check_upsert hcheck hnew
    rw [ho', upserted_of_new hnew] at hmem
    rw [heq]
    rcases List.mem_append.mp hmem with hmem | hmem
    · exact .inr ⟨o', hmem, rfl, by rw [if_neg (Ne.symm (hfresh o' hmem).1), Nat.add_zero]⟩
    · -- no version refers to an object that is not there
      have hnone : d.versionCount u.id = 0 := by
        refine List.countP_eq_zero.mpr fun x hx hxu => ?_
        obtain ⟨o, ho, hid, -⟩ := hd.refers x hx
        rw [beq_iff_eq] at hxu
        exact (hfresh o ho).1 (hid.trans hxu)
      rw [List.mem_singleton.mp hmem, hnone, if_pos rfl, hcount]
      exact .inl rfl
  | there o ho hsame heq =>
    rw [ho', upserted_of_mem ho hsame] at hmem
    obtain ⟨x, hx, rfl⟩ := List.mem_map.mp hmem
    refine .inr ⟨x, hx, (same_upserted u x).id.symm, ?_⟩
    rw [(same_upserted u x).id, heq]
    dsimp only
    by_cases hxu : u.sameContent x = true
    · obtain ⟨horg, hsha⟩ := StoredObject.sameContent_iff.mp hsame
      obtain ⟨horg', hsha'⟩ := StoredObject.sameContent_iff.mp hxu
      obtain rfl := hd.eq_of_hash hx ho (horg'.trans horg.symm) (hsha'.trans hsha.symm)
      rw [if_pos hxu, if_pos rfl]
      dsimp only
      omega
    · have hne : o.id ≠ x.id := fun hid => hxu (hd.eq_of_id ho hx hid ▸ hsame)
      rw [if_neg hxu, if_neg hne]
      rfl

/-- Statements that commit have passed their checks. -/
theorem replay_cons_view {s : UploadStmt} {l : List UploadStmt} {d' : UploadDb B}
    (h : (uploadSchema B).replay (s :: l) d = .ok d') :
    s.check d = true ∧ (uploadSchema B).replay l (s.apply d) = .ok d' :=
  (uploadSchema B).replay_cons_eq_ok.mp h

/-- **An upload is finalized.** -/
theorem LawfulCommit.finalize (hd : UploadsWell cfg.sha256 d) {org user i : Uuid}
    {row : UploadSession} {key : String} {bytes : B} {u storedObject : StoredObject}
    {document : UploadedDocument}
    {v : UploadedVersion} {job : QueuedJob} {held : Set UploadRow} {d' : UploadDb B}
    (hrow : d.sessions i = some row) (hstatus : row.status ≠ .finalized)
    (hkey : row.temporaryObjectKey = some key) (hbytes : d.storage org key = some bytes)
    (horg : u.organizationId = org) (hukey : u.opaqueObjectKey = key)
    (hsha : u.serverComputedSha256 = cfg.sha256 bytes) (hcount : u.referenceCount = 1)
    (hacq : Acquired d.objects u storedObject) (hv : v.storedObjectId = storedObject.id)
    (hvorg : v.organizationId = org) (hsession : UploadRow.session i ∈ held)
    (hobject : UploadRow.object u.organizationId u.serverComputedSha256 ∈ held)
    (hversion : UploadRow.version v.id ∈ held)
    (h : (uploadSchema B).replay [.upsertObject u, .insertDocument document, .insertVersion v,
      .insertJob job, .setSessionStatus i .finalized] d = .ok d') :
    LawfulCommit cfg (.finalizeUpload org i user) held d d' := by
  obtain ⟨hcheck, h⟩ := replay_cons_view h
  obtain ⟨-, h⟩ := replay_cons_view h
  obtain ⟨hversions, h⟩ := replay_cons_view h
  obtain rfl := (uploadSchema B).replay_eq_ok h
  have hfreshv : ∀ x ∈ d.versions, x.id ≠ v.id := by
    simp only [UploadStmt.check, Bool.and_eq_true, List.all_eq_true, bne_iff_ne] at hversions
    exact hversions.1.1
  -- nobody else has this key
  have hown : ∀ j row', d.sessions j = some row' → row'.temporaryObjectKey = some key → j = i :=
    fun j row' hj hk => hd.ownKey j i row' row key hj hrow hk hkey
  have hset := hd.setStatus (i := i) (.inl rfl)
  have hsetrow : (UploadStmt.apply (.setSessionStatus i .finalized) d).sessions i =
      some { row with status := .finalized } := by
    simp only [UploadStmt.apply, if_true, hrow, Option.map_some]
  have hupsert : UploadsWell cfg.sha256
      { UploadStmt.apply (.setSessionStatus i .finalized) d with
        objects := upserted u d.objects } :=
    hset.upsert hacq hcheck
    ⟨bytes, by rw [horg, hukey]; exact hbytes, hsha.symm⟩ (fun j row' hj hk => by
      by_cases hji : j = i
      · subst hji
        rw [hsetrow] at hj
        rw [← Option.some.inj hj]
      · have hj' : d.sessions j = some row' := by
          rw [← hj]
          simp only [UploadStmt.apply, if_neg hji]
        exact absurd (hown j row' hj' (hukey ▸ hk)) hji)
  have hevolves : UploadsEvolve d (UploadStmt.apply (.setSessionStatus i .finalized) d) :=
    .setStatus nofun fun row' hrow' => Option.some.inj (hrow.symm.trans hrow') ▸ hstatus
  refine ⟨fun r hr => ?_, ?_, ?_, ?_, ?_⟩
  · cases r with
    | session j =>
      have hji : j ≠ i := by
        rintro rfl
        exact hr hsession
      exact ⟨if_neg hji, fun _ _ _ _ _ => rfl⟩
    | object org' sha =>
      intro o ho ho'
      refine mem_upserted ?_
      by_contra hc
      rw [Bool.not_eq_false, StoredObject.sameContent_iff, ho, ho'] at hc
      rw [hc.1, hc.2] at hr
      exact hr hobject
    | version j =>
      intro x hx
      refine List.mem_append.trans (or_iff_left fun hxv => ?_)
      rw [← hx, List.mem_singleton.mp hxv] at hr
      exact hr hversion
  · refine { hupsert with uniqueVersion := ?_, refers := ?_ }
    · refine List.pairwise_append.mpr ⟨hd.uniqueVersion, List.pairwise_singleton _ _, ?_⟩
      intro x hx y hy
      rw [List.mem_singleton.mp hy]
      exact hfreshv x hx
    · intro x hx
      rcases List.mem_append.mp hx with hx | hx
      · exact hupsert.refers x hx
      · rw [List.mem_singleton.mp hx]
        exact ⟨storedObject, hacq.mem, hv.symm, by rw [hacq.organizationId, horg, hvorg]⟩
  · refine ⟨hevolves.finalized, hevolves.uploaded, hevolves.sessions, fun o ho => ?_, ?_⟩
    · cases hacq with
      | created hnew heq =>
        refine ⟨o, ?_, rfl, rfl, rfl, rfl⟩
        change o ∈ upserted u d.objects
        rw [upserted_of_new hnew]
        exact List.mem_append_left _ ho
      | there o' ho' hsame heq =>
        refine ⟨_, ?_, (same_upserted u o).id, (same_upserted u o).organizationId,
          (same_upserted u o).serverComputedSha256, (same_upserted u o).opaqueObjectKey⟩
        change _ ∈ upserted u d.objects
        rw [upserted_of_mem ho' hsame]
        exact List.mem_map_of_mem ho
    · intro j row' k hj hf hk hno o ho
      change o ∈ upserted u d.objects at ho
      cases hacq with
      | created hnew heq =>
        rw [upserted_of_new hnew] at ho
        rcases List.mem_append.mp ho with ho | ho
        · exact hno o ho
        · rw [List.mem_singleton.mp ho, hukey]
          rintro rfl
          -- the session with this key is not finalized
          obtain rfl := hown j row' hj hk
          exact hstatus (Option.some.inj (hrow.symm.trans hj) ▸ hf)
      | there o' ho' hsame heq =>
        rw [upserted_of_mem ho' hsame] at ho
        obtain ⟨x, hx, rfl⟩ := List.mem_map.mp ho
        rw [(same_upserted u x).opaqueObjectKey]
        exact hno x hx
  · exact .finalize hd hacq hcheck hcount hv rfl rfl
  · intro row' hrow'
    have hrow'' : some { row with status := UploadStatus.finalized } = some row' :=
      hsetrow.symm.trans hrow'
    rw [← Option.some.inj hrow'']
    nofun

end Commits

end FinanceIntelligence
