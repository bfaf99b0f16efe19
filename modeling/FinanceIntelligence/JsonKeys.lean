import FinanceIntelligence.JsonText
import FinanceIntelligence.RankedSelection
import Mathlib.Data.Char
import Mathlib.Data.List.Lex

/-!
# Sorted keys

A general layer: `json.dumps(…, sort_keys=True)`. The text of data that has different keys in its
objects tells the data; with sorted keys it tells them **up to the order of the fields**.

* `dumps_injective` — the text **tells the data**;
* `Keyed.canonical_eq_iff` — two maps have the same entries in sorted order exactly if they
  **assign the same** to every key;
* `sortKeys_obj_injective` — objects with the same keys in the same order are told by their text
  with sorted keys.
-/

namespace FinanceIntelligence

universe u v w

/-! ## Maps as lists -/

namespace Keyed

variable {κ : Type u} {β : Type v} {γ : Type w}

/-- The keys differ. -/
def Keys (l : List (κ × β)) : Prop := (l.map Prod.fst).Nodup

/-- Fields that are a permutation of fields with the same keys in the same order are the same. -/
theorem eq_of_perm {l l' : List (κ × β)} (hperm : l.Perm l')
    (hkeys : l.map Prod.fst = l'.map Prod.fst) (hnodup : Keys l) : l = l' := by
  induction l generalizing l' with
  | nil => exact (List.nil_perm.mp hperm).symm
  | cons x l ih =>
    cases l' with
    | nil => exact absurd hperm.symm (by simp)
    | cons x' l' =>
      have htail : l.map Prod.fst = l'.map Prod.fst := (List.cons.inj hkeys).2
      have hx : x = x' := by
        rcases List.mem_cons.mp (hperm.mem_iff.mp List.mem_cons_self) with hx | hx
        · exact hx
        · -- the key would stand twice
          have hmem : x.1 ∈ l.map Prod.fst := by
            rw [htail]
            exact List.mem_map_of_mem hx
          exact absurd hmem (List.nodup_cons.mp hnodup).1
      subst hx
      rw [ih (List.Perm.cons_inv hperm) htail (List.nodup_cons.mp hnodup).2]

variable [DecidableEq κ]

/-- What a map assigns to a key. -/
def find (l : List (κ × β)) (k : κ) : Option β := (l.find? fun x => x.1 = k).map Prod.snd

theorem find_eq_some_iff {l : List (κ × β)} (h : Keys l) {k : κ} {b : β} :
    find l k = some b ↔ (k, b) ∈ l := by
  induction l with
  | nil => simp [find]
  | cons x l ih =>
    obtain ⟨hx, hl⟩ := List.nodup_cons.mp h
    have ih : find l k = some b ↔ (k, b) ∈ l := ih hl
    rw [find, List.find?_cons, List.mem_cons]
    by_cases hk : x.1 = k
    · rw [decide_eq_true hk]
      constructor
      · intro hb
        exact .inl (Prod.ext hk.symm (Option.some.inj hb).symm)
      · rintro (rfl | hmem)
        · rfl
        · exact absurd (List.mem_map_of_mem (f := Prod.fst) hmem) (hk ▸ hx)
    · rw [decide_eq_false hk]
      refine ih.trans ⟨.inr, ?_⟩
      rintro (rfl | hmem)
      · exact absurd rfl hk
      · exact hmem

/-- The entries in the order of their keys, each as `f` shows it. -/
def canonical [LinearOrder κ] (f : β → γ) (l : List (κ × β)) : List (κ × γ) :=
  (sortedBy Prod.fst l).map fun (k, b) => (k, f b)

theorem mem_canonical [LinearOrder κ] {f : β → γ} {l : List (κ × β)} (h : Keys l) {k : κ} {c : γ} :
    (k, c) ∈ canonical f l ↔ (find l k).map f = some c := by
  rw [canonical, List.mem_map, Option.map_eq_some_iff]
  constructor
  · rintro ⟨⟨k', b⟩, hmem, heq⟩
    obtain ⟨rfl, rfl⟩ := Prod.mk.inj heq
    exact ⟨b, (find_eq_some_iff h).mpr ((mem_sortedBy Prod.fst l).mp hmem), rfl⟩
  · rintro ⟨b, hb, rfl⟩
    exact ⟨(k, b), (mem_sortedBy Prod.fst l).mpr ((find_eq_some_iff h).mp hb), rfl⟩

omit [DecidableEq κ] in
/-- The entries stand in a strict order. -/
theorem pairwise_canonical [LinearOrder κ] {f : β → γ} {l : List (κ × β)} (h : Keys l) :
    (canonical f l).Pairwise fun x y => x.1 < y.1 :=
  List.pairwise_map.mpr (pairwise_lt_sortedBy h)

/-- **Two maps** have the same entries in order exactly if they assign the same to every key. -/
theorem canonical_eq_iff [LinearOrder κ] {f : β → γ} {l l' : List (κ × β)} (h : Keys l)
    (h' : Keys l') :
    canonical f l = canonical f l' ↔ ∀ k, (find l k).map f = (find l' k).map f := by
  constructor
  · intro heq k
    ext c
    rw [← mem_canonical h, ← mem_canonical h', heq]
  · intro heq
    have hmem : ∀ x : κ × γ, x ∈ canonical f l ↔ x ∈ canonical f l' := fun (k, c) => by
      rw [mem_canonical h, mem_canonical h', heq k]
    have hnodup : ∀ {l : List (κ × β)}, Keys l → (canonical f l).Nodup := fun h =>
      (pairwise_canonical h).imp fun hlt heq => absurd (congrArg Prod.fst heq) hlt.ne
    refine List.Perm.eq_of_pairwise (fun x y _ _ hxy hyx => absurd hxy hyx.asymm)
      (pairwise_canonical h) (pairwise_canonical h') ?_
    exact (List.perm_ext_iff_of_nodup (hnodup h) (hnodup h')).mpr hmem

end Keyed

/-! ## The text tells the data -/

section Injective

variable {D : DoubleText}

mutual

theorem Json.toDart_injective : ∀ {v w : PyJson D}, v.toDart = w.toDart → v = w
  | .null, w, h => by cases w <;> simp_all [Json.toDart]
  | .bool b, w, h => by cases w <;> simp_all [Json.toDart]
  | .int n, w, h => by cases w <;> simp_all [Json.toDart]
  | .double x, w, h => by cases w <;> simp_all [Json.toDart]
  | .str s, w, h => by
    cases w with
    | str t => exact congrArg _ (utf16_injective (Json.str.inj h))
    | _ => cases h
  | .arr l, w, h => by
    cases w with
    | arr l' => exact congrArg _ (Json.toDartList_injective (Json.arr.inj h))
    | _ => cases h
  | .obj l, w, h => by
    cases w with
    | obj l' => exact congrArg _ (Json.toDartFields_injective (Json.obj.inj h))
    | _ => cases h

theorem Json.toDartList_injective : ∀ {l l' : List (PyJson D)},
    Json.toDartList l = Json.toDartList l' → l = l'
  | [], [], _ => rfl
  | [], _ :: _, h => by cases h
  | _ :: _, [], h => by cases h
  | v :: l, w :: l', h => by
    obtain ⟨hv, hl⟩ := List.cons.inj h
    rw [Json.toDart_injective hv, Json.toDartList_injective hl]

theorem Json.toDartFields_injective : ∀ {l l' : List (List Char × PyJson D)},
    Json.toDartFields l = Json.toDartFields l' → l = l'
  | [], [], _ => rfl
  | [], _ :: _, h => by cases h
  | _ :: _, [], h => by cases h
  | (k, v) :: l, (k', w) :: l', h => by
    obtain ⟨hfield, hl⟩ := List.cons.inj h
    obtain ⟨hk, hv⟩ := Prod.mk.inj hfield
    rw [utf16_injective hk, Json.toDart_injective hv, Json.toDartFields_injective hl]

end

/-- **The text tells the data.** -/
theorem dumps_injective {v w : PyJson D} (hv : v.Wf) (hw : w.Wf) (h : dumps D v = dumps D w) :
    v = w := by
  have hread := jsonDecode_dumps hv
  rw [h, jsonDecode_dumps hw] at hread
  exact (Json.toDart_injective (Option.some.inj hread)).symm

end Injective

/-! ## Sorting the keys -/

section SortKeys

variable {D : DoubleText}

mutual

/-- The data with the fields of every object in the order of their keys. -/
def Json.sortKeys : PyJson D → PyJson D
  | .arr l => .arr (Json.sortKeysList l)
  | .obj l => .obj (sortedBy Prod.fst (Json.sortKeysFields l))
  | v => v

/-- The elements of an array. -/
def Json.sortKeysList : List (PyJson D) → List (PyJson D)
  | [] => []
  | v :: l => v.sortKeys :: Json.sortKeysList l

/-- The fields of an object. -/
def Json.sortKeysFields : List (List Char × PyJson D) → List (List Char × PyJson D)
  | [] => []
  | (k, v) :: l => (k, v.sortKeys) :: Json.sortKeysFields l

end

theorem Json.sortKeysFields_keys (l : List (List Char × PyJson D)) :
    (Json.sortKeysFields l).map Prod.fst = l.map Prod.fst := by
  induction l with
  | nil => rfl
  | cons x l ih => exact congrArg (x.1 :: ·) ih

theorem Json.sortKeysFields_values (l : List (List Char × PyJson D)) :
    (Json.sortKeysFields l).map Prod.snd = l.map fun x => x.2.sortKeys := by
  induction l with
  | nil => rfl
  | cons x l ih => exact congrArg (x.2.sortKeys :: ·) ih

theorem Json.sortKeysList_eq_map (l : List (PyJson D)) :
    Json.sortKeysList l = l.map Json.sortKeys := by
  induction l with
  | nil => rfl
  | cons v l ih => exact congrArg (v.sortKeys :: ·) ih

theorem Json.wfFields_iff {l : List (List Char × PyJson D)} :
    Json.WfFields l ↔ ∀ x ∈ l, x.2.Wf := by
  induction l with
  | nil => exact iff_of_true trivial fun x h => absurd h List.not_mem_nil
  | cons x l ih =>
    rw [List.forall_mem_cons, ← ih]
    exact Iff.rfl

mutual

theorem Json.Wf.sortKeys : ∀ {v : PyJson D}, v.Wf → v.sortKeys.Wf
  | .null, h => h
  | .bool _, h => h
  | .int _, h => h
  | .double _, h => h
  | .str _, h => h
  | .arr l, h => Json.WfList.sortKeys (l := l) h
  | .obj l, ⟨hkeys, hfields⟩ => by
    refine ⟨?_, Json.wfFields_iff.mpr fun x hx => ?_⟩
    · refine ((perm_sortedBy Prod.fst _).map Prod.fst).nodup_iff.mpr ?_
      rw [Json.sortKeysFields_keys]
      exact hkeys
    · exact Json.wfFields_iff.mp (Json.WfFields.sortKeys hfields) x
        ((mem_sortedBy Prod.fst _).mp hx)

theorem Json.WfList.sortKeys : ∀ {l : List (PyJson D)},
    Json.WfList l → Json.WfList (Json.sortKeysList l)
  | [], h => h
  | _ :: _, ⟨hv, hl⟩ => ⟨Json.Wf.sortKeys hv, Json.WfList.sortKeys hl⟩

theorem Json.WfFields.sortKeys : ∀ {l : List (List Char × PyJson D)},
    Json.WfFields l → Json.WfFields (Json.sortKeysFields l)
  | [], h => h
  | _ :: _, ⟨hv, hl⟩ => ⟨Json.Wf.sortKeys hv, Json.WfFields.sortKeys hl⟩

end

/-- **Objects with the same keys** in the same order are told by their fields in any order. -/
theorem sortKeys_obj_injective {l l' : List (List Char × PyJson D)}
    (hkeys : l.map Prod.fst = l'.map Prod.fst) (hnodup : Keyed.Keys l)
    (h : (Json.obj l : PyJson D).sortKeys = (Json.obj l').sortKeys) :
    Json.sortKeysFields l = Json.sortKeysFields l' := by
  have hsorted : sortedBy Prod.fst (Json.sortKeysFields l) =
      sortedBy Prod.fst (Json.sortKeysFields l') := Json.obj.inj h
  refine Keyed.eq_of_perm ?_ ?_ ?_
  · exact (perm_sortedBy Prod.fst _).symm.trans (hsorted ▸ perm_sortedBy Prod.fst _)
  · rw [Json.sortKeysFields_keys, Json.sortKeysFields_keys, hkeys]
  · rw [Keyed.Keys, Json.sortKeysFields_keys]
    exact hnodup

end SortKeys

end FinanceIntelligence
