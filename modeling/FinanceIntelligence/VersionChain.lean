import Mathlib.Data.List.Nodup
import Mathlib.Logic.Relation

/-!
# Version chains

A general layer: a table of versions, in insertion order, to which versions are
only added. A version is current until it is closed. A key is opened with a
version that succeeds none, and revised by closing its current version and
adding the successor.

* `Grows` — the two ways in which a table grows;
* `WellFormed` — one current version per key, and the successors form simple
  chains: `Succeeds` has at most one version on either side and no cycle.
-/

namespace FinanceIntelligence

namespace VersionChain

variable {I K T : Type}

/-- A version of what a key names. -/
structure Version (I K T : Type) where
  /-- its identity -/
  id : I
  /-- what it is a version of -/
  key : K
  /-- the version it succeeds -/
  supersedes : Option I
  /-- the beginning of its validity -/
  validFrom : T
  /-- the end of its validity; a current version has none -/
  validTo : Option T

variable [DecidableEq I]

/-- End the validity of one version. -/
def close (i : I) (t : T) (v : Version I K T) : Version I K T :=
  if v.id = i then { v with validTo := some t } else v

/-- A table with one more version. -/
inductive Grows (h : List (Version I K T)) : List (Version I K T) → Prop where
  /-- a key that has no current version gets one -/
  | opened (v : Version I K T) (fresh : ∀ w ∈ h, w.id ≠ v.id) (root : v.supersedes = none)
      (current : v.validTo = none) (alone : ∀ w ∈ h, w.validTo = none → w.key ≠ v.key) :
      Grows h (h ++ [v])
  /-- the current version of a key gets a successor -/
  | revised (old v : Version I K T) (mem : old ∈ h) (wasCurrent : old.validTo = none)
      (fresh : ∀ w ∈ h, w.id ≠ v.id) (succeeds : v.supersedes = some old.id)
      (key : v.key = old.key) (current : v.validTo = none) :
      Grows h (h.map (close old.id v.validFrom) ++ [v])

/-- What holds of every table that grows from the empty one. -/
structure WellFormed (h : List (Version I K T)) : Prop where
  /-- identities are unique -/
  ids : (h.map (·.id)).Nodup
  /-- a key has one current version at most -/
  alone : ∀ v ∈ h, ∀ w ∈ h, v.validTo = none → w.validTo = none → v.key = w.key → v = w
  /-- what a version succeeds was there before it -/
  earlier : ∀ (n : ℕ) (v : Version I K T) i, h[n]? = some v → v.supersedes = some i →
    ∃ m < n, ∃ w : Version I K T, h[m]? = some w ∧ w.id = i
  /-- a succeeded version ends when its successor begins -/
  adjacent : ∀ v ∈ h, ∀ w ∈ h, w.supersedes = some v.id → v.validTo = some w.validFrom
  /-- a version has one successor at most -/
  simple : ∀ v ∈ h, ∀ w ∈ h, v.supersedes = w.supersedes → v.supersedes.isSome → v = w

@[simp] theorem close_id (i : I) (t : T) (v : Version I K T) : (close i t v).id = v.id := by
  rw [close]
  split <;> rfl

@[simp] theorem close_key (i : I) (t : T) (v : Version I K T) : (close i t v).key = v.key := by
  rw [close]
  split <;> rfl

@[simp] theorem close_supersedes (i : I) (t : T) (v : Version I K T) :
    (close i t v).supersedes = v.supersedes := by
  rw [close]
  split <;> rfl

@[simp] theorem close_validFrom (i : I) (t : T) (v : Version I K T) :
    (close i t v).validFrom = v.validFrom := by
  rw [close]
  split <;> rfl

/-- What is current after a version was closed was current before, and is
another one. -/
theorem validTo_close {i : I} {t : T} {v : Version I K T} (h : (close i t v).validTo = none) :
    v.validTo = none ∧ v.id ≠ i := by
  rw [close] at h
  split at h
  · cases h
  · exact ⟨h, ‹_›⟩

namespace WellFormed

variable {h : List (Version I K T)}

omit [DecidableEq I] in
theorem nil : WellFormed ([] : List (Version I K T)) where
  ids := List.nodup_nil
  alone _ h := by cases h
  earlier _ _ _ h := by cases h
  adjacent _ h := by cases h
  simple _ h := by cases h

omit [DecidableEq I] in
/-- The identity names the version. -/
theorem eq_of_id (hw : WellFormed h) {v w : Version I K T} (hv : v ∈ h) (hw' : w ∈ h)
    (hid : v.id = w.id) : v = w := List.inj_on_of_nodup_map hw.ids hv hw' hid

omit [DecidableEq I] in
/-- A succeeded version is in the table. -/
theorem exists_of_supersedes (hw : WellFormed h) {v : Version I K T} {i : I} (hv : v ∈ h)
    (hi : v.supersedes = some i) : ∃ w ∈ h, w.id = i := by
  obtain ⟨n, hn⟩ := List.mem_iff_getElem?.mp hv
  obtain ⟨m, -, w, hm, hid⟩ := hw.earlier n v i hn hi
  exact ⟨w, List.mem_iff_getElem?.mpr ⟨m, hm⟩, hid⟩

omit [DecidableEq I] in
/-- A current version is succeeded by none. -/
theorem supersedes_ne (hw : WellFormed h) {v w : Version I K T} (hv : v ∈ h) (hw' : w ∈ h)
    (hcurrent : v.validTo = none) : w.supersedes ≠ some v.id := by
  intro hsup
  rw [hw.adjacent v hv w hw' hsup] at hcurrent
  cases hcurrent

omit [DecidableEq I] in
/-- A version that succeeds one of the table, or none, may be added. -/
theorem append (hw : WellFormed h) {v : Version I K T} (fresh : ∀ w ∈ h, w.id ≠ v.id)
    (alone : ∀ w ∈ h, w.validTo = none → v.validTo = none → w.key ≠ v.key)
    (adjacent : ∀ w ∈ h, v.supersedes = some w.id → w.validTo = some v.validFrom)
    (single : ∀ w ∈ h, v.supersedes = w.supersedes → v.supersedes = none)
    (mem : ∀ i, v.supersedes = some i → ∃ w ∈ h, w.id = i) : WellFormed (h ++ [v]) where
  ids := by
    rw [List.map_append, List.map_singleton, List.nodup_append]
    refine ⟨hw.ids, List.nodup_singleton _, ?_⟩
    intro i hi j hj hij
    obtain ⟨w, hw', rfl⟩ := List.mem_map.mp hi
    rw [List.mem_singleton.mp hj] at hij
    exact fresh w hw' hij
  alone := by
    intro a ha b hb hca hcb hkey
    rcases List.mem_append.mp ha with ha' | ha' <;> rcases List.mem_append.mp hb with hb' | hb'
    · exact hw.alone a ha' b hb' hca hcb hkey
    · obtain rfl := List.mem_singleton.mp hb'
      exact absurd hkey (alone a ha' hca hcb)
    · obtain rfl := List.mem_singleton.mp ha'
      exact absurd hkey.symm (alone b hb' hcb hca)
    · rw [List.mem_singleton.mp ha', List.mem_singleton.mp hb']
  earlier := by
    intro n a i hn hsup
    by_cases hlt : n < h.length
    · rw [List.getElem?_append_left hlt] at hn
      obtain ⟨m, hm, w, hw', hid⟩ := hw.earlier n a i hn hsup
      exact ⟨m, hm, w, by rw [List.getElem?_append_left (Nat.lt_trans hm hlt), hw'], hid⟩
    · rw [List.getElem?_append_right (Nat.le_of_not_lt hlt), List.getElem?_singleton] at hn
      split at hn
      · obtain rfl := Option.some.inj hn
        obtain ⟨w, hw', hid⟩ := mem i hsup
        obtain ⟨m, hm⟩ := List.mem_iff_getElem?.mp hw'
        have hlt' : m < h.length := (List.getElem?_eq_some_iff.mp hm).1
        exact ⟨m, by omega, w, by rw [List.getElem?_append_left hlt', hm], hid⟩
      · cases hn
  adjacent := by
    intro a ha b hb hsup
    rcases List.mem_append.mp ha with ha' | ha' <;> rcases List.mem_append.mp hb with hb' | hb'
    · exact hw.adjacent a ha' b hb' hsup
    · obtain rfl := List.mem_singleton.mp hb'
      exact adjacent a ha' hsup
    · obtain rfl := List.mem_singleton.mp ha'
      obtain ⟨w, hw', hid⟩ := hw.exists_of_supersedes hb' hsup
      exact absurd hid (fresh w hw')
    · obtain rfl := List.mem_singleton.mp ha'
      rw [List.mem_singleton.mp hb'] at hsup
      obtain ⟨w, hw', hid⟩ := mem _ hsup
      exact absurd hid (fresh w hw')
  simple := by
    intro a ha b hb hsup hsome
    rcases List.mem_append.mp ha with ha' | ha' <;> rcases List.mem_append.mp hb with hb' | hb'
    · exact hw.simple a ha' b hb' hsup hsome
    · obtain rfl := List.mem_singleton.mp hb'
      rw [hsup, single a ha' hsup.symm] at hsome
      cases hsome
    · obtain rfl := List.mem_singleton.mp ha'
      rw [single b hb' hsup] at hsome
      cases hsome
    · rw [List.mem_singleton.mp ha', List.mem_singleton.mp hb']

/-- A current version may be closed when a new one is about to succeed it. -/
theorem map_close (hw : WellFormed h) {old : Version I K T} (hold : old ∈ h)
    (hcurrent : old.validTo = none) (t : T) : WellFormed (h.map (close old.id t)) where
  ids := by
    rw [List.map_map, show (fun v : Version I K T => v.id) ∘ close old.id t = (·.id) from
      funext fun v => close_id old.id t v]
    exact hw.ids
  alone := by
    intro a ha b hb hca hcb hkey
    obtain ⟨v, hv, rfl⟩ := List.mem_map.mp ha
    obtain ⟨w, hw', rfl⟩ := List.mem_map.mp hb
    rw [close_key, close_key] at hkey
    rw [hw.alone v hv w hw' (validTo_close hca).1 (validTo_close hcb).1 hkey]
  earlier := by
    intro n a i hn hsup
    rw [List.getElem?_map] at hn
    obtain ⟨v, hv, rfl⟩ := Option.map_eq_some_iff.mp hn
    rw [close_supersedes] at hsup
    obtain ⟨m, hm, w, hw', hid⟩ := hw.earlier n v i hv hsup
    exact ⟨m, hm, close old.id t w, by rw [List.getElem?_map, hw']; rfl, by rw [close_id, hid]⟩
  adjacent := by
    intro a ha b hb hsup
    obtain ⟨v, hv, rfl⟩ := List.mem_map.mp ha
    obtain ⟨w, hw', rfl⟩ := List.mem_map.mp hb
    rw [close_supersedes, close_id] at hsup
    have hne : v.id ≠ old.id := by
      intro hid
      rw [hid] at hsup
      exact hw.supersedes_ne hold hw' hcurrent hsup
    rw [close_validFrom, close, if_neg hne]
    exact hw.adjacent v hv w hw' hsup
  simple := by
    intro a ha b hb hsup hsome
    obtain ⟨v, hv, rfl⟩ := List.mem_map.mp ha
    obtain ⟨w, hw', rfl⟩ := List.mem_map.mp hb
    rw [close_supersedes] at hsup hsome
    rw [close_supersedes] at hsup
    rw [hw.simple v hv w hw' hsup hsome]

/-- **A growing table stays well formed.** -/
theorem grows (hw : WellFormed h) {h' : List (Version I K T)} (hg : Grows h h') :
    WellFormed h' := by
  cases hg with
  | opened v fresh root current alone =>
    refine hw.append fresh (fun w hw' hc _ => alone w hw' hc) ?_ (fun _ _ _ => root) ?_
    · intro w _ hsup
      rw [root] at hsup
      cases hsup
    · intro i hsup
      rw [root] at hsup
      cases hsup
  | revised old v mem hcurrent fresh succeeds key current =>
    refine (hw.map_close mem hcurrent v.validFrom).append ?_ ?_ ?_ ?_ ?_
    · intro a ha
      obtain ⟨w, hw', rfl⟩ := List.mem_map.mp ha
      rw [close_id]
      exact fresh w hw'
    · intro a ha hca _ hkey
      obtain ⟨w, hw', rfl⟩ := List.mem_map.mp ha
      obtain ⟨hcw, hne⟩ := validTo_close hca
      rw [close_key, key] at hkey
      exact hne (by rw [hw.alone w hw' old mem hcw hcurrent hkey])
    · intro a ha hsup
      obtain ⟨w, hw', rfl⟩ := List.mem_map.mp ha
      rw [succeeds, close_id] at hsup
      rw [close, if_pos (Option.some.inj hsup).symm]
    · intro a ha hsup
      obtain ⟨w, hw', rfl⟩ := List.mem_map.mp ha
      rw [close_supersedes, succeeds] at hsup
      exact absurd hsup.symm (hw.supersedes_ne mem hw' hcurrent)
    · intro i hsup
      rw [succeeds] at hsup
      exact ⟨close old.id v.validFrom old, List.mem_map_of_mem mem,
        (close_id ..).trans (Option.some.inj hsup)⟩

end WellFormed

/-! ## Chains -/

/-- The first version succeeds the second. -/
def Succeeds (h : List (Version I K T)) (w v : Version I K T) : Prop :=
  w ∈ h ∧ v ∈ h ∧ w.supersedes = some v.id

omit [DecidableEq I] in
/-- A chain leads to earlier places of the table. -/
theorem WellFormed.place_lt {h : List (Version I K T)} (hw : WellFormed h)
    {v w : Version I K T} (hs : Relation.TransGen (Succeeds h) w v) :
    ∀ n : ℕ, h[n]? = some w → ∃ m < n, h[m]? = some v := by
  have hstep : ∀ a b, Succeeds h a b → ∀ n : ℕ, h[n]? = some a → ∃ m < n, h[m]? = some b := by
    intro a b ⟨_, hb, hsup⟩ n hn
    obtain ⟨m, hm, x, hx, hid⟩ := hw.earlier n a b.id hn hsup
    rw [hw.eq_of_id (List.mem_iff_getElem?.mpr ⟨m, hx⟩) hb hid] at hx
    exact ⟨m, hm, hx⟩
  induction hs with
  | single hs => exact hstep _ _ hs
  | tail _ hs ih =>
    intro n hn
    obtain ⟨m, hm, hx⟩ := ih n hn
    obtain ⟨k, hk, hy⟩ := hstep _ _ hs m hx
    exact ⟨k, Nat.lt_trans hk hm, hy⟩

omit [DecidableEq I] in
/-- **No cycles.** -/
theorem WellFormed.acyclic {h : List (Version I K T)} (hw : WellFormed h) (v : Version I K T) :
    ¬ Relation.TransGen (Succeeds h) v v := by
  intro hs
  have hno : ∀ n : ℕ, h[n]? ≠ some v := by
    intro n
    induction n using Nat.strongRecOn with
    | _ n ih =>
      intro hn
      obtain ⟨m, hm, hv⟩ := hw.place_lt hs n hn
      exact ih m hm hv
  have hmem : v ∈ h := by
    obtain ⟨_, hstep, _⟩ := Relation.TransGen.head'_iff.mp hs
    exact hstep.1
  obtain ⟨n, hn⟩ := List.mem_iff_getElem?.mp hmem
  exact hno n hn

end VersionChain

end FinanceIntelligence
