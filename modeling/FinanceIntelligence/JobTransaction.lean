import FinanceIntelligence.AnalysisDiscipline

/-!
# Reasoning about one transaction

`Holds f m σ`: the process has locked the jobs `f` names, found the rows
`(f j).1` there, and its pending statements turn them into `(f j).2`. Each
instruction of an analysis program has one rule about it; the proofs about the
programs use these rules and never look at the schema.
-/

namespace FinanceIntelligence

open AnalysisProg

/-- The jobs a transaction has locked: the rows it found, and the rows as it has
changed them; `none` where there is no such job. -/
abbrev Locked := Uuid → Option (Option JobRows × Option JobRows)

namespace Locked

/-- No job is locked. -/
def none : Locked := fun _ => Option.none

/-- One more job, or one more change of it. -/
def put (f : Locked) (j : Uuid) (o₀ o : Option JobRows) : Locked :=
  Function.update f j (some (o₀, o))

/-- An existing job. -/
def set (f : Locked) (j : Uuid) (r₀ r : JobRows) : Locked := f.put j (some r₀) (some r)

/-- The changes of a transaction put over the contents. -/
def overlay (f : Locked) (d : AnalysisDb) : AnalysisDb :=
  { d with rows := fun i => match f i with
      | some (_, o) => o
      | Option.none => d.rows i }

/-- The contents are those the transaction found. -/
def Found (f : Locked) (d : AnalysisDb) : Prop := ∀ j x, f j = some x → d.rows j = x.1

@[simp] theorem none_apply (j : Uuid) : none j = Option.none := rfl

@[simp] theorem put_self (f : Locked) (j : Uuid) (o₀ o : Option JobRows) :
    f.put j o₀ o j = some (o₀, o) := Function.update_self ..

@[simp] theorem set_self (f : Locked) (j : Uuid) (r₀ r : JobRows) :
    f.set j r₀ r j = some (some r₀, some r) := Function.update_self ..

theorem put_of_ne (f : Locked) {i j : Uuid} (o₀ o : Option JobRows) (h : i ≠ j) :
    f.put j o₀ o i = f i := Function.update_of_ne h ..

@[simp] theorem set_set (f : Locked) (j : Uuid) (r₀ r r₀' r' : JobRows) :
    (f.set j r₀ r).set j r₀' r' = f.set j r₀' r' := Function.update_idem ..

/-- The only job of a transaction. -/
theorem set_none_apply {i j : Uuid} {r₀ r : JobRows} {x : Option JobRows × Option JobRows}
    (h : none.set j r₀ r i = some x) : i = j ∧ x = (some r₀, some r) := by
  by_cases hij : i = j
  · subst hij
    rw [set_self] at h
    exact ⟨rfl, (Option.some.inj h).symm⟩
  · rw [set, put_of_ne none _ _ hij] at h
    cases h

theorem overlay_apply {f : Locked} {j : Uuid} {x : Option JobRows × Option JobRows}
    (d : AnalysisDb) (hf : f j = some x) : (f.overlay d).rows j = x.2 := by
  simp [overlay, hf]

theorem overlay_of_none {f : Locked} {j : Uuid} (d : AnalysisDb) (hf : f j = Option.none) :
    (f.overlay d).rows j = d.rows j := by
  simp [overlay, hf]

/-- Locking changes nothing. -/
theorem overlay_lock {f : Locked} {d : AnalysisDb} {j : Uuid} (hf : f j = Option.none) :
    (f.put j (d.rows j) (d.rows j)).overlay d = f.overlay d := by
  simp only [overlay, AnalysisDb.mk.injEq, true_and]
  funext i
  by_cases hij : i = j
  · subst hij
    simp [hf]
  · rw [put_of_ne f _ _ hij]

/-- A statement on a locked job changes the rows of that job. -/
theorem overlay_set {f : Locked} {j : Uuid} (r₀ r : JobRows) (d : AnalysisDb) :
    (f.overlay d).setRows j r = (f.set j r₀ r).overlay d := by
  simp only [overlay, AnalysisDb.setRows, AnalysisDb.mk.injEq, true_and]
  funext i
  by_cases hij : i = j
  · subst hij
    simp
  · simp [hij, set, put_of_ne f _ _ hij]

end Locked

/-- What a process knows inside a transaction. -/
structure Holds (f : Locked) (m : Option Mark) (σ : Cfg Row Stmt Mark AnalysisDb) : Prop where
  /-- it holds the locks -/
  held : ∀ j x, f j = some x → Row.job j ∈ σ.held
  /-- its last note -/
  mark : σ.mark = m
  /-- it found these rows -/
  found : f.Found σ.db
  /-- its statements commit, with these changes -/
  replay : ∀ d, f.Found d → analysisSchema.replay σ.pending d = .ok (f.overlay d)
  /-- a clarification it has not locked is as it was -/
  kept : ∀ j r₀ r cl, f j = some (some r₀, some r) → Row.clarification j cl ∉ σ.held →
    ∀ x ∈ r₀.clarifications, x.id = cl → x ∈ r.clarifications

namespace Holds

variable {f : Locked} {m : Option Mark} {σ : Cfg Row Stmt Mark AnalysisDb} {cfg : EngineConfig}

/-- Nothing is locked between transactions. -/
theorem idle (m : Option Mark) (d : AnalysisDb) : Holds .none m ⟨∅, [], m, d⟩ where
  held _ _ h := by cases h
  mark := rfl
  found _ _ h := by cases h
  replay _ _ := rfl
  kept _ _ _ _ h := by cases h

/-- The locks keep what was found. -/
theorem found_of_rely (h : Holds f m σ) {d : AnalysisDb}
    (hd : (analysisDiscipline cfg).rely σ d) : f.Found d := by
  intro j x hj
  rw [show d.rows j = σ.db.rows j from hd.agree _ (h.held j _ hj)]
  exact h.found j x hj

/-- What the transaction sees. -/
theorem view (h : Holds f m σ) {d : AnalysisDb} (hd : f.Found d) :
    analysisSchema.view σ.pending d = f.overlay d :=
  (analysisSchema.replay_eq_ok (h.replay d hd)).symm

/-- Other processes may go on, and rows may be locked that no job has. -/
theorem rely (h : Holds f m σ) {d : AnalysisDb} (hd : (analysisDiscipline cfg).rely σ d)
    {held : Set Row} (hheld : σ.held ⊆ held) : Holds f m { σ with held := held, db := d } :=
  ⟨fun j x hj => hheld (h.held j x hj), h.mark, h.found_of_rely hd, h.replay,
    fun j r₀ r cl hj hcl => h.kept j r₀ r cl hj fun hcl' => hcl (hheld hcl')⟩

/-- One more lock. -/
theorem lock (h : Holds f m σ) {d : AnalysisDb} (hd : (analysisDiscipline cfg).rely σ d)
    {j : Uuid} (hf : f j = none) {held : Set Row} (hheld : σ.held ⊆ held) (hj : Row.job j ∈ held) :
    Holds (f.put j (d.rows j) (d.rows j)) m { σ with held := held, db := d } where
  held i x hi := by
    by_cases hij : i = j
    · rwa [hij]
    · rw [Locked.put_of_ne f _ _ hij] at hi
      exact hheld (h.held i x hi)
  mark := h.mark
  found i x hi := by
    by_cases hij : i = j
    · subst hij
      rw [Locked.put_self] at hi
      rw [← Option.some.inj hi]
    · rw [Locked.put_of_ne f _ _ hij] at hi
      exact h.found_of_rely hd i x hi
  replay d' hd' := by
    have hfound : f.Found d' := fun i x hi => by
      refine hd' i x ?_
      rwa [Locked.put_of_ne f _ _ fun hij => by simp [hij, hf] at hi]
    have hj : d'.rows j = d.rows j := hd' j _ (f.put_self ..)
    rw [h.replay d' hfound, ← hj, Locked.overlay_lock hf]
  kept i r₀ r cl hi hcl := by
    by_cases hij : i = j
    · subst hij
      rw [Locked.put_self] at hi
      obtain ⟨h₀, h₁⟩ := Prod.mk.inj (Option.some.inj hi)
      obtain rfl := Option.some.inj (h₀.symm.trans h₁)
      exact fun x hx _ => hx
    · rw [Locked.put_of_ne f _ _ hij] at hi
      exact h.kept i r₀ r cl hi fun hcl' => hcl (hheld hcl')

/-- A statement leaves the clarifications of other ids as they are. -/
theorem mem_apply {w : JobWrite} {r : JobRows} {x : AnalysisClarification}
    (hw : ∀ cl set, w = .updateClarification cl set → x.id ≠ cl) (hx : x ∈ r.clarifications) :
    x ∈ (w.apply r).clarifications := by
  cases w with
  | insertClarification c => exact List.mem_append_left _ hx
  | updateClarification cl set =>
    exact List.mem_map.mpr ⟨x, hx, if_neg (hw cl set rfl)⟩
  | _ => exact hx

/-- One more statement; to update a clarification is to lock it. -/
theorem write (h : Holds f m σ) {j : Uuid} {r₀ r : JobRows} {w : JobWrite}
    (hf : f j = some (some r₀, some r)) (hw : w.check r = true)
    (hlocked : ∀ cl set, w = .updateClarification cl set → Row.clarification j cl ∈ σ.held) :
    Holds (f.set j r₀ (w.apply r)) m { σ with pending := σ.pending ++ [.onJob j w] } where
  held i x hi := by
    by_cases hij : i = j
    · rw [hij]
      exact h.held j _ hf
    · rw [Locked.set, Locked.put_of_ne f _ _ hij] at hi
      exact h.held i x hi
  mark := h.mark
  found i x hi := by
    by_cases hij : i = j
    · subst hij
      rw [Locked.set_self] at hi
      have hfi : σ.db.rows i = some r₀ := h.found i _ hf
      rw [← Option.some.inj hi, hfi]
    · rw [Locked.set, Locked.put_of_ne f _ _ hij] at hi
      exact h.found i x hi
  replay d' hd' := by
    have hfound : f.Found d' := by
      intro i x hi
      by_cases hij : i = j
      · subst hij
        have hdi : d'.rows i = some r₀ := hd' i _ (f.set_self ..)
        rw [← Option.some.inj (hf.symm.trans hi), hdi]
      · exact hd' i x (by rwa [Locked.set, Locked.put_of_ne f _ _ hij])
    rw [Schema.replay_append _ (h.replay d' hfound)]
    simp [Schema.replay, analysisSchema, Locked.overlay_apply d' hf, hw, Locked.overlay_set r₀]
  kept i r₁ r₂ cl hi hcl := by
    by_cases hij : i = j
    · subst hij
      rw [Locked.set_self] at hi
      obtain ⟨h₀, h₁⟩ := Prod.mk.inj (Option.some.inj hi)
      obtain rfl := Option.some.inj h₀
      obtain rfl := Option.some.inj h₁
      intro x hx hid
      refine mem_apply (fun cl' set hw' hid' => hcl ?_) (h.kept i _ _ cl hf hcl x hx hid)
      rw [← hid, hid']
      exact hlocked cl' set hw'
    · rw [Locked.set, Locked.put_of_ne f _ _ hij] at hi
      exact h.kept i r₁ r₂ cl hi hcl

/-- One more statement, on a job that does not exist. -/
theorem write_missing (h : Holds f m σ) {j : Uuid} {w : JobWrite}
    (hf : f j = some (none, none)) :
    Holds f m { σ with pending := σ.pending ++ [.onJob j w] } where
  held := h.held
  mark := h.mark
  found := h.found
  replay d' hd' := by
    rw [Schema.replay_append _ (h.replay d' hd')]
    simp [Schema.replay, analysisSchema, Locked.overlay_apply d' hf]
  kept := h.kept

end Holds

/-! ## The rules of the instructions -/

section Rules

variable {cfg : EngineConfig} {c : AnalysisCall} {f : Locked} {m : Option Mark}
  {σ : Cfg Row Stmt Mark AnalysisDb} {j : Uuid} {r₀ r : JobRows}

/-- A postcondition of an analysis program. -/
abbrev Post (α : Type) := α → Cfg Row Stmt Mark AnalysisDb → Prop

/-- The transaction reads the rows it has changed, and otherwise what is
committed. -/
theorem wp_select {Q : Post AnalysisDb} {E : Post Exc} (h : Holds f m σ)
    (hQ : ∀ d σ', (∀ j x, f j = some x → d.rows j = x.2) → Holds f m σ' → Q d σ') :
    (analysisDiscipline cfg).wp c select Q E σ := by
  intro d hd
  have hview : (analysisModel cfg).schema.view σ.pending d = f.overlay d :=
    h.view (h.found_of_rely hd)
  refine hQ _ _ (fun j x hj => ?_) (h.rely hd subset_rfl)
  rw [hview]
  exact Locked.overlay_apply d hj

/-- A read of a job that stores its request, locked or not. -/
theorem wp_select_understood {Q : Post AnalysisDb} {E : Post Exc} (h : Holds f m σ)
    (hj : Understood j σ.db)
    (hQ : ∀ d σ', Holds f m σ' → Understood j σ'.db → Q d σ') :
    (analysisDiscipline cfg).wp c select Q E σ :=
  fun _ hd => hQ _ _ (h.rely hd subset_rfl) (hj.evolves hd.evolves)

/-- A statement on a locked job. -/
theorem wp_execute {w : JobWrite} {Q : Post Unit} {E : Post Exc} (h : Holds f m σ)
    (hf : f j = some (some r₀, some r)) (hE : ∀ x σ', σ'.mark = m → E x σ')
    (hsound : (∃ e, w = .insertEvent e) → w.check r = true)
    (hQ : w.check r = true → ∀ σ', Holds (f.set j r₀ (w.apply r)) m σ' → Q () σ') :
    (analysisDiscipline cfg).wp c (execute (.onJob j w)) Q E σ := by
  intro d hd
  have hview : (analysisModel cfg).schema.view σ.pending d = f.overlay d :=
    h.view (h.found_of_rely hd)
  have hcheck : (analysisModel cfg).schema.check (.onJob j w) (f.overlay d) = w.check r := by
    change ((f.overlay d).rows j).all w.check = w.check r
    rw [Locked.overlay_apply d hf]
    rfl
  rw [hview, hcheck]
  refine ⟨fun hw => ?_, fun hw => ⟨?_, ?_⟩⟩
  · refine hQ hw _ ((h.rely hd Set.subset_union_left).write hf hw fun cl set hset => .inr ?_)
    rw [hset]
    exact List.mem_singleton_self _
  · rintro ⟨i, e, he⟩
    obtain ⟨rfl, rfl⟩ := Stmt.onJob.inj he
    rw [hsound ⟨e, rfl⟩] at hw
    cases hw
  · exact hE _ _ h.mark

/-- A statement on a job that was not locked: the rows are those of the moment. -/
theorem wp_execute_unlocked {w : JobWrite} {Q : Post Unit} {E : Post Exc} (h : Holds f m σ)
    (hf : f j = none) (hE : ∀ x σ', σ'.mark = m → E x σ') (hw : ¬ ∃ e, w = .insertEvent e)
    (ht : analysisSchema.target (.onJob j w) = some (.job j))
    (hmissing : ∀ σ', Holds (f.put j none none) m σ' → Q () σ')
    (hQ : ∀ r σ', w.check r = true → Numbered r.events →
      Holds (f.set j r (w.apply r)) m σ' → Q () σ') :
    (analysisDiscipline cfg).wp c (execute (.onJob j w)) Q E σ := by
  intro d hd
  have hview : (analysisModel cfg).schema.view σ.pending d = f.overlay d :=
    h.view (h.found_of_rely hd)
  have hcheck : (analysisModel cfg).schema.check (.onJob j w) (f.overlay d) =
      (d.rows j).all w.check := by
    change ((f.overlay d).rows j).all w.check = _
    rw [Locked.overlay_of_none d hf]
  have hheld : σ.held ⊆ σ.held ∪ {x | x ∈ (some (Row.job j)).toList} := Set.subset_union_left
  have hlock := h.lock hd hf hheld (.inr (by simp))
  rw [hview, hcheck]
  refine ⟨fun hc => ?_, fun _ => ⟨?_, hE _ _ h.mark⟩⟩
  · rw [show (analysisModel cfg).schema.target (.onJob j w) = some (.job j) from ht]
    cases hr : d.rows j with
    | none =>
      rw [hr] at hlock
      exact hmissing _ (hlock.write_missing (f.put_self ..))
    | some r =>
      rw [hr] at hlock hc
      have hnot : ∀ cl set, w ≠ .updateClarification cl set := by
        rintro cl set rfl
        cases ht
      have hw' := hlock.write (w := w) (f.put_self ..) hc fun cl set hset => absurd hset (hnot cl set)
      rw [Locked.set, Locked.put, Locked.put, Function.update_idem] at hw'
      exact hQ r _ hc (hd.inv.numbered j r hr) hw'
  · rintro ⟨i, e, he⟩
    obtain ⟨rfl, rfl⟩ := Stmt.onJob.inj he
    exact hw ⟨e, rfl⟩

/-- A statement on a job that does not exist. -/
theorem wp_execute_missing {w : JobWrite} {Q : Post Unit} {E : Post Exc} (h : Holds f m σ)
    (hf : f j = some (none, none)) (hQ : ∀ σ', Holds f m σ' → Q () σ') :
    (analysisDiscipline cfg).wp c (execute (.onJob j w)) Q E σ := by
  intro d hd
  have hview : (analysisModel cfg).schema.view σ.pending d = f.overlay d :=
    h.view (h.found_of_rely hd)
  have hcheck : (analysisModel cfg).schema.check (.onJob j w) (f.overlay d) = true := by
    change ((f.overlay d).rows j).all w.check = true
    rw [Locked.overlay_apply d hf]
    rfl
  rw [hview, hcheck]
  refine ⟨fun _ => ?_, fun hc => by cases hc⟩
  exact hQ _ ((h.rely hd Set.subset_union_left).write_missing hf)

/-- Locking a job that is locked already: the row is as the transaction has
changed it. -/
theorem wp_lockJob_held {q : JobRows → Bool} {Q : Post Bool} {E : Post Exc} (h : Holds f m σ)
    (hf : f j = some (some r₀, some r)) (hQ : ∀ σ', Holds f m σ' → Q (q r) σ') :
    (analysisDiscipline cfg).wp c (lockJob j q) Q E σ := by
  intro d hd
  have hview : (analysisModel cfg).schema.view σ.pending d = f.overlay d :=
    h.view (h.found_of_rely hd)
  have hrow : onRows j q (f.overlay d) = q r := by
    rw [onRows, Locked.overlay_apply d hf]
    rfl
  rw [hview, hrow]
  refine ⟨fun hq => ?_, fun hq => ?_⟩
  · have := hQ _ (h.rely hd (Set.subset_insert (.job j) _))
    rwa [hq] at this
  · have := hQ _ (h.rely hd subset_rfl)
    rwa [hq] at this

/-- Locking a job: either no row qualifies, or the row is locked as found. -/
theorem wp_lockJob {q : JobRows → Bool} {Q : Post Bool} {E : Post Exc} (h : Holds f m σ)
    (hf : f j = none) (hfalse : ∀ σ', Holds f m σ' → Q false σ')
    (htrue : ∀ r σ', q r = true → Numbered r.events → Holds (f.set j r r) m σ' → Q true σ') :
    (analysisDiscipline cfg).wp c (lockJob j q) Q E σ := by
  intro d hd
  have hview : (analysisModel cfg).schema.view σ.pending d = f.overlay d :=
    h.view (h.found_of_rely hd)
  have hrow : onRows j q (f.overlay d) = (d.rows j).any q := by
    rw [onRows, Locked.overlay_of_none d hf]
  rw [hview, hrow]
  refine ⟨fun hq => ?_, fun _ => hfalse _ (h.rely hd subset_rfl)⟩
  obtain ⟨r, hr, hqr⟩ := (Option.any_eq_true _ _).mp hq
  have hlock := h.lock hd hf (Set.subset_insert (.job j) _) (Set.mem_insert _ _)
  rw [hr] at hlock
  exact htrue r _ hqr (hd.inv.numbered j r hr) hlock

/-- Locking a job that stores its request. -/
theorem wp_lockJob_understood {q : JobRows → Bool} {Q : Post Bool} {E : Post Exc}
    (h : Holds f m σ) (hf : f j = none) (hj : Understood j σ.db)
    (hfalse : ∀ σ', Holds f m σ' → Q false σ')
    (htrue : ∀ r σ', q r = true → Numbered r.events → r.isNormalized = true →
      Holds (f.set j r r) m σ' → Q true σ') :
    (analysisDiscipline cfg).wp c (lockJob j q) Q E σ := by
  intro d hd
  obtain ⟨r₁, hr₁, hreq⟩ := hj.evolves hd.evolves
  have hview : (analysisModel cfg).schema.view σ.pending d = f.overlay d :=
    h.view (h.found_of_rely hd)
  have hrow : onRows j q (f.overlay d) = q r₁ := by
    rw [onRows, Locked.overlay_of_none d hf, hr₁]
    rfl
  rw [hview, hrow]
  refine ⟨fun hq => ?_, fun _ => hfalse _ (h.rely hd subset_rfl)⟩
  have hlock := h.lock hd hf (Set.subset_insert (.job j) _) (Set.mem_insert _ _)
  rw [hr₁] at hlock
  exact htrue r₁ _ hq (hd.inv.numbered j r₁ hr₁) hreq hlock

/-- Locking a clarification. -/
theorem wp_lockClarification {cl : Uuid} {q : AnalysisDb → Bool} {α : Type}
    {k : Bool → AnalysisProg α} {Q : Post α} {E : Post Exc} (h : Holds f m σ)
    (hk : ∀ b σ', Holds f m σ' → (analysisDiscipline cfg).wp c (k b) Q E σ') :
    (analysisDiscipline cfg).wp c (.lock (.clarification j cl) q k) Q E σ := by
  intro d hd
  exact ⟨fun _ => hk true _ (h.rely hd (Set.subset_insert _ _)),
    fun _ => hk false _ (h.rely hd subset_rfl)⟩

/-- A conditional update of a locked job. -/
theorem wp_updateWhere_held {q : JobRows → Bool} {set : AnalysisJob → AnalysisJob}
    {Q : Post Bool} {E : Post Exc} (h : Holds f m σ) (hf : f j = some (some r₀, some r))
    (hE : ∀ x σ', σ'.mark = m → E x σ')
    (htrue : ∀ σ', Holds (f.set j r₀ { r with job := set r.job }) m σ' → Q true σ')
    (hfalse : ∀ σ', Holds f m σ' → Q false σ') :
    (analysisDiscipline cfg).wp c (updateWhere j q set) Q E σ := by
  rw [updateWhere, Prog.bind_eq, Discipline.wp_bind]
  refine wp_lockJob_held h hf fun σ' h' => ?_
  cases q r with
  | true =>
    simp only [if_true, Prog.bind_eq, Discipline.wp_bind]
    refine wp_execute h' hf hE (by rintro ⟨e, he⟩; cases he) fun _ σ'' h'' => ?_
    exact htrue σ'' h''
  | false => exact hfalse σ' h'

/-- Committing: every locked job is as it was, or has taken a step; the next
transaction begins with what was committed. -/
theorem wp_commit_rows {Q : Post Unit} {E : Post Exc} (h : Holds f m σ)
    (hstep : ∀ j x, f j = some x → x.2 = x.1 ∨
      ∃ r₀ r, x = (some r₀, some r) ∧ Numbered r.events ∧ JobStep cfg c m j r₀ r)
    (hQ : ∀ σ', Holds .none m σ' → (∀ j x, f j = some x → σ'.db.rows j = x.2) → Q () σ') :
    (analysisDiscipline cfg).wp c commit Q E σ := by
  obtain rfl := h.mark
  intro d hd
  have hfound := h.found_of_rely hd
  have hreplay : (analysisModel cfg).schema.replay σ.pending d = .ok (f.overlay d) :=
    h.replay d hfound
  rw [hreplay]
  refine ⟨fun d' hd' => ?_, fun a ha => by cases ha⟩
  cases hd'
  have hrows : ∀ j, (f.overlay d).rows j = d.rows j ∨ ∃ r₀ r, f j = some (some r₀, some r) ∧
      d.rows j = some r₀ ∧ (f.overlay d).rows j = some r ∧ Numbered r.events ∧
      JobStep cfg c σ.mark j r₀ r := by
    intro j
    cases hj : f j with
    | none => exact .inl (Locked.overlay_of_none d hj)
    | some x =>
      rcases hstep j x hj with hx | ⟨r₀, r, rfl, hn, hs⟩
      · left
        rw [Locked.overlay_apply d hj, hx, hfound j x hj]
      · exact .inr ⟨r₀, r, rfl, hfound j _ hj, Locked.overlay_apply d hj, hn, hs⟩
  refine ⟨fun row hrow => ?_, ⟨hd.inv.jobIds, fun j hj => ?_, fun j r hr => ?_, fun j r hr => ?_⟩,
    ⟨rfl, fun j => ?_⟩, hQ _ (.idle _ _) fun j x hj => Locked.overlay_apply d hj⟩
  · cases row with
    | clarification j cl =>
      intro r hr
      rcases hrows j with hj | ⟨r₀, r', hj, hr₀, hr', -⟩
      · exact ⟨r, hj.trans hr, fun x hx _ => hx⟩
      · obtain rfl := Option.some.inj (hr.symm.trans hr₀)
        exact ⟨r', hr', h.kept j r r' cl hj hrow⟩
    | job j =>
      rcases hrows j with hj | ⟨r₀, r, hj, -⟩
      · exact hj
      · exact absurd (h.held j _ hj) hrow
  · rcases hrows j with hj' | ⟨r₀, r, -, -, hj', -⟩
    · rw [hj']
      exact hd.inv.listed j hj
    · rw [hj']
      rfl
  · rcases hrows j with hj | ⟨r₀, r', -, -, hj, hn, -⟩
    · rw [hj] at hr
      exact hd.inv.numbered j r hr
    · obtain rfl := Option.some.inj (hj.symm.trans hr)
      exact hn
  · rcases hrows j with hj | ⟨r₀, r', -, hr₀, hj, -, hs⟩
    · rw [hj] at hr
      exact hd.inv.oneAwaiting j r hr
    · obtain rfl := Option.some.inj (hj.symm.trans hr)
      exact hs.oneAwaiting (hd.inv.oneAwaiting j r₀ hr₀)
  · rcases hrows j with hj | ⟨r₀, r, -, hj₀, hj, -, hs⟩
    · rw [hj]
      exact .same _
    · rw [hj, hj₀]
      exact .step hs

/-- Committing, whatever the next transaction finds. -/
theorem wp_commit {Q : Post Unit} {E : Post Exc} (h : Holds f m σ)
    (hstep : ∀ j x, f j = some x → x.2 = x.1 ∨
      ∃ r₀ r, x = (some r₀, some r) ∧ Numbered r.events ∧ JobStep cfg c m j r₀ r)
    (hQ : ∀ σ', Holds .none m σ' → Q () σ') :
    (analysisDiscipline cfg).wp c commit Q E σ :=
  wp_commit_rows h hstep fun σ' h' _ => hQ σ' h'

/-- The next event of a locked job; its sequence is never taken. -/
theorem wp_emitEvent {eventType : EventType} {payload : Payload} {attemptId : Option Uuid}
    {Q : Post Unit} {E : Post Exc} (h : Holds f m σ) (hf : f j = some (some r₀, some r))
    (hn : Numbered r.events) (hE : ∀ x σ', σ'.mark = m → E x σ')
    (hQ : ∀ e σ', e.sequence = r.events.length + 1 → e.eventType = eventType →
      Holds (f.set j r₀ { r with events := r.events ++ [e] }) m σ' → Q () σ') :
    (analysisDiscipline cfg).wp c (AnalysisEventEngine.emitEvent j eventType payload attemptId)
      Q E σ := by
  rw [AnalysisEventEngine.emitEvent]
  split
  · exact hE _ _ h.mark
  · rw [Prog.bind_eq, Discipline.wp_bind]
    refine wp_select h fun d σ' hd h' => ?_
    have hlast : ((d.rows j).map AnalysisEventEngine.lastSequence).getD 0 = r.events.length := by
      rw [show d.rows j = some r from hd j _ hf]
      exact hn.lastSequence_eq
    rw [hlast]
    refine wp_execute h' hf hE (fun _ => hn.check_insertEvent rfl) fun _ σ'' h'' => ?_
    exact hQ _ σ'' rfl rfl h''

/-- Rolling back, whatever was pending. -/
theorem wp_rollback {Q : Post Unit} {E : Post Exc}
    (hQ : ∀ σ', Holds .none σ.mark σ' → Q () σ') :
    (analysisDiscipline cfg).wp c rollback Q E σ :=
  fun _ _ => hQ _ (.idle _ _)

/-- A note. -/
theorem wp_note {m' : Mark} {Q : Post Unit} {E : Post Exc} (h : Holds f m σ)
    (hnoted : ∀ d, f.Found d → (analysisDiscipline cfg).noted c m' d)
    (hQ : ∀ σ', Holds f (some m') σ' → Q () σ') :
    (analysisDiscipline cfg).wp c (note m') Q E σ := by
  intro d hd
  exact ⟨hnoted d (h.found_of_rely hd), hQ _ ⟨h.held, rfl, h.found_of_rely hd, h.replay, h.kept⟩⟩

/-- A call of something outside. -/
theorem wp_call {α : Type} {g : Answer → α} {Q : Post α} {E : Post Exc}
    (hE : ∀ x, E x σ) (hQ : ∀ a, Q a σ) : (analysisDiscipline cfg).wp c (call g) Q E σ := by
  intro i
  obtain ⟨_, error, _, _, _, _, _⟩ := i
  cases error with
  | none => exact hQ _
  | some e => exact hE _

/-- A fresh identifier, which may be any. -/
theorem wp_uuid4 {Q : Post Uuid} {E : Post Exc} (hQ : ∀ id, Q id σ) :
    (analysisDiscipline cfg).wp c uuid4 Q E σ := fun i => hQ i.uuid

/-- A validated transition. -/
theorem wp_validateTransition {current new : AnalysisJobStatus} {Q : Post Unit} {E : Post Exc}
    (hE : ∀ x, E x σ)
    (hQ : AnalysisJobStatus.validateTransition current new = none → Q () σ) :
    (analysisDiscipline cfg).wp c (AnalysisProg.validateTransition current new) Q E σ := by
  rw [AnalysisProg.validateTransition]
  cases hv : AnalysisJobStatus.validateTransition current new with
  | none => exact hQ hv
  | some e => exact hE _

end Rules

end FinanceIntelligence
