import FinanceIntelligence.RelyGuarantee

/-!
# What a process knows

A general layer over `RelyGuarantee`: the knowledge of one process inside its transaction, and what
each instruction adds to it.

* `Discipline.Knows` — the process holds the locks on `rows`, `K` holds of the contents as long as
  it does, and it has run the statements `l`.
* One rule for each instruction, in the terms of the knowledge before and after it.
* `Prog.Reads` — a part of a program that only reads keeps everything that is known.
-/

namespace FinanceIntelligence

variable {R A I N D X C E α β : Type}

namespace Prog

/-- The program only reads. -/
def Reads : Prog R A I N D X α → Prop
  | .ret _ => True
  | .raise _ => True
  | .ask k => ∀ i, (k i).Reads
  | .read k => ∀ d, (k d).Reads
  | .lock _ _ _ => False
  | .lockSkip _ _ _ => False
  | .write _ _ => False
  | .commit _ => False
  | .rollback _ => False
  | .note _ _ => False

/-- Both parts only read. -/
theorem Reads.bind {p : Prog R A I N D X α} {f : α → Prog R A I N D X β} (hp : p.Reads)
    (hf : ∀ a, (f a).Reads) : (p.bind f).Reads := by
  induction p with
  | ret a => exact hf a
  | raise x => trivial
  | ask k ih => exact fun i => ih i (hp i)
  | read k ih => exact fun d => ih d (hp d)
  | lock | lockSkip | write | commit | rollback | note => exact hp.elim

end Prog

namespace Discipline

variable {M : Model R A I N D X C E}

/-- What a process knows inside its transaction. -/
structure Knows (G : Discipline M) (rows : List R) (K : D → Prop) (l : List A)
    (σ : Cfg R A N D) : Prop where
  /-- the others keep it -/
  kept : ∀ d d', (∀ r ∈ rows, G.agree r d d') → G.evolves d d' → G.inv d' → K d → K d'
  /-- the locks -/
  held : ∀ r ∈ rows, r ∈ σ.held
  /-- what was found -/
  holds : K σ.db
  /-- the statements -/
  pending : σ.pending = l

variable {G : Discipline M} {c : C} {σ : Cfg R A N D} {rows rows' : List R} {K K' : D → Prop}
  {l : List A} {Q : α → Cfg R A N D → Prop} {F : X → Cfg R A N D → Prop}

/-- Nothing is known when a transaction begins. -/
theorem Knows.start (h : σ.pending = []) : G.Knows [] (fun _ => True) [] σ :=
  ⟨fun _ _ _ _ _ _ => trivial, nofun, trivial, h⟩

/-- The others go on. -/
theorem Knows.rely (h : G.Knows rows K l σ) {d : D} (hd : G.rely σ d) {held : Set R}
    (hheld : σ.held ⊆ held) : G.Knows rows K l { σ with held := held, db := d } where
  kept := h.kept
  held r hr := hheld (h.held r hr)
  holds := h.kept _ _ (fun r hr => hd.agree r (h.held r hr)) hd.evolves hd.inv h.holds
  pending := h.pending

/-- Something more is found. -/
theorem Knows.and (h : G.Knows rows K l σ)
    (hkept : ∀ d d', (∀ r ∈ rows, G.agree r d d') → G.evolves d d' → G.inv d' → K d → K' d → K' d')
    (hK' : K' σ.db) : G.Knows rows (fun d => K d ∧ K' d) l σ where
  kept d d' hagree hevolves hinv hd := ⟨h.kept d d' hagree hevolves hinv hd.1,
    hkept d d' hagree hevolves hinv hd.1 hd.2⟩
  held := h.held
  holds := ⟨h.holds, hK'⟩
  pending := h.pending

/-- What was found is forgotten. -/
theorem Knows.forget (h : G.Knows rows K l σ) : G.Knows rows (fun _ => True) l σ :=
  ⟨fun _ _ _ _ _ _ => trivial, h.held, trivial, h.pending⟩

/-- More locks. -/
theorem Knows.mono (h : G.Knows rows K l σ) (hrows : ∀ r ∈ rows, r ∈ rows')
    (hheld : ∀ r ∈ rows', r ∈ σ.held) : G.Knows rows' K l σ where
  kept d d' hagree := h.kept d d' fun r hr => hagree r (hrows r hr)
  held := hheld
  holds := h.holds
  pending := h.pending

/-- A plain `SELECT` sees the contents under the statements that were run. -/
theorem Knows.read (h : G.Knows rows K l σ) {k : D → Prog R A I N D X α}
    (hk : ∀ σ', G.inv σ'.db → G.Knows rows K l σ' →
      G.wp c (k (M.schema.view l σ'.db)) Q F σ') : G.wp c (.read k) Q F σ := by
  obtain rfl := h.pending
  exact fun d hd => hk _ hd.inv (h.rely hd subset_rfl)

/-- A row that is locked stays as it is. -/
theorem Knows.lock (h : G.Knows rows K l σ) {r : R} {q : D → Bool}
    {k : Bool → Prog R A I N D X α}
    (hyes : ∀ σ', G.inv σ'.db → q (M.schema.view l σ'.db) = true → G.Knows (r :: rows) K l σ' →
      G.wp c (k true) Q F σ')
    (hno : ∀ σ', q (M.schema.view l σ'.db) = false → G.Knows rows K l σ' →
      G.wp c (k false) Q F σ') : G.wp c (.lock r q k) Q F σ := by
  obtain rfl := h.pending
  intro d hd
  refine ⟨fun hq => hyes _ hd.inv hq ?_, fun hq => hno _ hq (h.rely hd subset_rfl)⟩
  have h' := h.rely hd (Set.subset_insert r σ.held)
  refine h'.mono (fun _ => List.mem_cons_of_mem r) fun r' hr' => ?_
  rcases List.mem_cons.mp hr' with rfl | hr'
  · exact Set.mem_insert ..
  · exact h'.held r' hr'

/-- A statement is run, or its constraints do not hold. -/
theorem Knows.write (h : G.Knows rows K l σ) {a : A} {k : Bool → Prog R A I N D X α}
    (hsound : ¬ G.sound a)
    (hok : ∀ σ', G.Knows ((M.schema.target a).toList ++ rows) K (l ++ [a]) σ' →
      G.wp c (k true) Q F σ')
    (hfail : ∀ σ', G.Knows ((M.schema.target a).toList ++ rows) K l σ' →
      G.wp c (k false) Q F σ') : G.wp c (.write a k) Q F σ := by
  intro d hd
  have h' : G.Knows ((M.schema.target a).toList ++ rows) K l
      { σ with held := σ.held ∪ {r | r ∈ (M.schema.target a).toList}, db := d } := by
    have hrely := h.rely hd (Set.subset_union_left (t := {r | r ∈ (M.schema.target a).toList}))
    refine hrely.mono (fun r hr => List.mem_append_right _ hr) fun r hr => ?_
    rcases List.mem_append.mp hr with hr | hr
    · exact Set.mem_union_right _ hr
    · exact hrely.held r hr
  exact ⟨fun _ => hok _ ⟨h'.kept, h'.held, h'.holds, by rw [h.pending]⟩,
    fun _ => ⟨hsound, hfail _ h'⟩⟩

/-- A commit goes through, or has no effect; then nothing is known. -/
theorem Knows.commit (h : G.Knows rows K l σ) {k : Option A → Prog R A I N D X α}
    (hsound : ∀ a, ¬ G.sound a)
    (hlawful : ∀ d d', G.inv d → K d → M.schema.replay l d = .ok d' →
      (∀ r, r ∉ rows → G.agree r d d') ∧ G.inv d' ∧ G.guar c σ.mark d d')
    (hk : ∀ e σ', G.Knows [] (fun _ => True) [] σ' → G.wp c (k e) Q F σ') :
    G.wp c (.commit k) Q F σ := by
  obtain rfl := h.pending
  intro d hd
  refine ⟨fun d' hreplay => ?_, fun a _ => ⟨hsound a, hk _ _ (.start rfl)⟩⟩
  obtain ⟨hagree, hinv, hguar⟩ := hlawful d d' hd.inv (h.rely hd subset_rfl).holds hreplay
  exact ⟨fun r hr => hagree r fun hmem => hr (h.held r hmem), hinv, hguar, hk _ _ (.start rfl)⟩

/-- After a rollback nothing is known. -/
theorem wp_rollback {k : Prog R A I N D X α}
    (hk : ∀ σ', G.Knows [] (fun _ => True) [] σ' → G.wp c k Q F σ') :
    G.wp c (.rollback k) Q F σ := fun _ _ => hk _ (.start rfl)

/-- **A part that only reads** keeps what is known. -/
theorem Knows.reads (h : G.Knows rows K l σ) {p : Prog R A I N D X α} (hp : p.Reads) :
    G.wp c p (fun _ σ' => G.Knows rows K l σ') (fun _ σ' => G.Knows rows K l σ') σ := by
  induction p generalizing σ with
  | ret a => exact h
  | raise x => exact h
  | ask k ih => exact fun i => ih i h (hp i)
  | read k ih => exact h.read fun σ' _ h' => ih _ h' (hp _)
  | lock | lockSkip | write | commit | rollback | note => exact hp.elim

end Discipline

end FinanceIntelligence
