import FinanceIntelligence.Knowledge

/-!
# A program that runs alone

A general layer over `Transaction`: what a program comes to when no other process takes a step
while it runs, with the answers to what it asks given beforehand. **Such a run is one of the
runs of every model** (`Model.run_alone`).
-/

namespace FinanceIntelligence

variable {R A I N D X C E α β : Type}

/-- How far a program that runs alone has come. -/
structure Solo (A D : Type) where
  /-- statements run but not committed -/
  pending : List A := []
  /-- the committed contents -/
  db : D
  /-- the answers that were given -/
  asked : ℕ := 0

namespace Solo

/-- The contents that the program sees. -/
def view (S : Schema R A D) (σ : Solo A D) : D := S.view σ.pending σ.db

end Solo

namespace Prog

variable (S : Schema R A D) (answer : ℕ → I)

/-- The outcome of a program that runs alone: every lock is free. -/
def alone : Prog R A I N D X α → Solo A D → Except X α × Solo A D
  | .ret a, σ => (.ok a, σ)
  | .raise x, σ => (.error x, σ)
  | .ask k, σ => (k (answer σ.asked)).alone { σ with asked := σ.asked + 1 }
  | .read k, σ => (k (σ.view S)).alone σ
  | .lock _ q k, σ => (k (q (σ.view S))).alone σ
  | .lockSkip rs n k, σ => (k ((rs (σ.view S)).take n)).alone σ
  | .write a k, σ =>
    if S.check a (σ.view S) then (k true).alone { σ with pending := σ.pending ++ [a] }
    else (k false).alone σ
  | .commit k, σ =>
    match S.replay σ.pending σ.db with
    | .ok d => (k none).alone { σ with pending := [], db := d }
    | .error a => (k (some a)).alone { σ with pending := [] }
  | .rollback k, σ => k.alone { σ with pending := [] }
  | .note _ k, σ => k.alone σ

variable {S answer}

@[simp] theorem alone_ret (a : α) (σ : Solo A D) :
    (.ret a : Prog R A I N D X α).alone S answer σ = (.ok a, σ) := rfl

@[simp] theorem alone_raise (x : X) (σ : Solo A D) :
    (.raise x : Prog R A I N D X α).alone S answer σ = (.error x, σ) := rfl

/-- One part after the other. -/
theorem alone_bind (p : Prog R A I N D X α) (f : α → Prog R A I N D X β) (σ : Solo A D) :
    (p.bind f).alone S answer σ =
      match p.alone S answer σ with
      | (.ok a, σ') => (f a).alone S answer σ'
      | (.error x, σ') => (.error x, σ') := by
  induction p generalizing σ with
  | ret a => rfl
  | raise x => rfl
  | ask k ih => exact ih _ _
  | read k ih => exact ih _ _
  | lock r q k ih => exact ih _ _
  | lockSkip rs n k ih => exact ih _ _
  | write a k ih =>
    simp only [Prog.bind, alone]
    split
    · exact ih _ _
    · exact ih _ _
  | commit k ih =>
    simp only [Prog.bind, alone]
    split
    · exact ih _ _
    · exact ih _ _
  | rollback k ih => exact ih _
  | note n k ih => exact ih _

/-- A part that returns, and the rest. -/
theorem alone_bind_ok {p : Prog R A I N D X α} {f : α → Prog R A I N D X β} {σ σ' : Solo A D}
    {a : α} (h : p.alone S answer σ = (.ok a, σ')) :
    (p.bind f).alone S answer σ = (f a).alone S answer σ' := by
  rw [alone_bind, h]

/-- What a part raises goes through the rest. -/
theorem alone_bind_error {p : Prog R A I N D X α} {f : α → Prog R A I N D X β} {σ σ' : Solo A D}
    {x : X} (h : p.alone S answer σ = (.error x, σ')) :
    (p.bind f).alone S answer σ = (.error x, σ') := by
  rw [alone_bind, h]

/-- A part and its handler. -/
theorem alone_tryCatch (p : Prog R A I N D X α) (h : X → Prog R A I N D X α) (σ : Solo A D) :
    (p.tryCatch h).alone S answer σ =
      match p.alone S answer σ with
      | (.ok a, σ') => (.ok a, σ')
      | (.error x, σ') => (h x).alone S answer σ' := by
  induction p generalizing σ with
  | ret a => rfl
  | raise x => rfl
  | ask k ih => exact ih _ _
  | read k ih => exact ih _ _
  | lock r q k ih => exact ih _ _
  | lockSkip rs n k ih => exact ih _ _
  | write a k ih =>
    simp only [Prog.tryCatch, alone]
    split
    · exact ih _ _
    · exact ih _ _
  | commit k ih =>
    simp only [Prog.tryCatch, alone]
    split
    · exact ih _ _
    · exact ih _ _
  | rollback k ih => exact ih _
  | note n k ih => exact ih _

/-- Where all answers are the same it does not matter how many were given. -/
theorem alone_const (i : I) (p : Prog R A I N D X α) (σ : Solo A D) (n : ℕ) :
    (p.alone S (fun _ => i) { σ with asked := n }).1 = (p.alone S (fun _ => i) σ).1 := by
  induction p generalizing σ n with
  | ret a => rfl
  | raise x => rfl
  | ask k ih => exact (ih i { σ with asked := σ.asked + 1 } (n + 1))
  | read k ih => exact ih _ σ n
  | lock r q k ih => exact ih _ σ n
  | lockSkip rs m k ih => exact ih _ σ n
  | write a k ih =>
    have hview : Solo.view S { σ with asked := n } = σ.view S := rfl
    simp only [alone, hview]
    by_cases hcheck : S.check a (σ.view S) = true
    · rw [if_pos hcheck, if_pos hcheck]
      exact ih _ { σ with pending := σ.pending ++ [a] } n
    · rw [if_neg hcheck, if_neg hcheck]
      exact ih _ σ n
  | commit k ih =>
    simp only [alone]
    cases S.replay σ.pending σ.db with
    | ok d => exact ih _ { σ with pending := [], db := d } n
    | error a => exact ih _ { σ with pending := [] } n
  | rollback k ih => exact ih { σ with pending := [] } n
  | note m k ih => exact ih σ n

/-- A program that only reads leaves everything as it is. -/
theorem Reads.alone {p : Prog R A I N D X α} (h : p.Reads) (σ : Solo A D) :
    (p.alone S answer σ).2.pending = σ.pending ∧ (p.alone S answer σ).2.db = σ.db := by
  induction p generalizing σ with
  | ret a => exact ⟨rfl, rfl⟩
  | raise x => exact ⟨rfl, rfl⟩
  | ask k ih => exact ih _ (h _) _
  | read k ih => exact ih _ (h _) _
  | lock | lockSkip | write | commit | rollback | note => exact h.elim

/-- A program that only reads leaves the view as it is. -/
theorem Reads.view {p : Prog R A I N D X α} (h : p.Reads) {σ σ' : Solo A D} {r : Except X α}
    (hp : p.alone S answer σ = (r, σ')) : σ'.view S = σ.view S := by
  have hsame := @Reads.alone _ _ _ _ _ _ _ S answer _ h σ
  rw [hp] at hsame
  rw [Solo.view, Solo.view, hsame.1, hsame.2]

/-! ## Programs that raise -/

variable (S answer)

/-- The program raises when it runs alone. -/
def Raises (p : Prog R A I N D X α) (σ : Solo A D) : Prop :=
  ∃ x, (p.alone S answer σ).1 = .error x

variable {S answer}

/-- A part that raises. -/
theorem Raises.bind_left {p : Prog R A I N D X α} {f : α → Prog R A I N D X β} {σ : Solo A D}
    (h : p.Raises S answer σ) : (p.bind f).Raises S answer σ := by
  obtain ⟨x, hx⟩ := h
  refine ⟨x, ?_⟩
  rw [alone_bind]
  split
  · rename_i heq
    rw [heq] at hx
    cases hx
  · rename_i heq
    rw [heq] at hx
    cases hx
    rfl

/-- What follows a part raises whenever the part returns. -/
theorem Raises.bind {p : Prog R A I N D X α} {f : α → Prog R A I N D X β} {σ : Solo A D}
    (h : ∀ a σ', p.alone S answer σ = (.ok a, σ') → (f a).Raises S answer σ') :
    (p.bind f).Raises S answer σ := by
  simp only [Raises, alone_bind]
  split
  · rename_i a σ' heq
    exact h a σ' heq
  · exact ⟨_, rfl⟩

/-- A part raises, and so does its handler. -/
theorem Raises.tryCatch {p : Prog R A I N D X α} {f : X → Prog R A I N D X α} {σ : Solo A D}
    (h : p.Raises S answer σ) (hf : ∀ x σ', (f x).Raises S answer σ') :
    (p.tryCatch f).Raises S answer σ := by
  obtain ⟨x, hx⟩ := h
  simp only [Raises, alone_tryCatch]
  split
  · rename_i heq
    rw [heq] at hx
    cases hx
  · exact hf _ _

/-- What a part returns is its own if its handler raises. -/
theorem alone_of_tryCatch {p : Prog R A I N D X α} {f : X → Prog R A I N D X α}
    {σ σ' : Solo A D} {a : α} (hf : ∀ x σ', (f x).Raises S answer σ')
    (h : (p.tryCatch f).alone S answer σ = (.ok a, σ')) : p.alone S answer σ = (.ok a, σ') := by
  rw [alone_tryCatch] at h
  split at h
  · rename_i heq
    rw [heq, h]
  · obtain ⟨x, hx⟩ := hf _ _
    rw [h] at hx
    cases hx

/-- A first part that returns. -/
theorem alone_bind_eq_ok {p : Prog R A I N D X α} {f : α → Prog R A I N D X β} {σ σ' : Solo A D}
    {b : β} (h : (p.bind f).alone S answer σ = (.ok b, σ')) :
    ∃ a σ₁, p.alone S answer σ = (.ok a, σ₁) ∧ (f a).alone S answer σ₁ = (.ok b, σ') := by
  rw [alone_bind] at h
  split at h
  · rename_i a σ₁ heq
    exact ⟨a, σ₁, heq, h⟩
  · cases h

/-- The program that is left at an outcome. -/
def ofOutcome : Except X α → Prog R A I N D X α
  | .ok a => .ret a
  | .error x => .raise x

end Prog

namespace Model

variable [DecidableEq R] {M : Model R A I N D X C E}

/-- No other process holds a lock. -/
def OthersIdle (p : ℕ) (s : Sys R A I N D X C) : Prop := ∀ r, s.free p r = true

omit [DecidableEq R] in
theorem OthersIdle.release {p : ℕ} {s : Sys R A I N D X C} (h : OthersIdle p s) :
    OthersIdle p (s.release p) := by
  intro r
  have hr := h r
  simp only [Sys.free, Sys.release] at hr ⊢
  split
  · rfl
  · exact hr

theorem OthersIdle.acquire {p : ℕ} {s : Sys R A I N D X C} (h : OthersIdle p s) (l : List R) :
    OthersIdle p (s.acquire p l) := by
  intro r
  have hr := h r
  simp only [Sys.free, Sys.acquire] at hr ⊢
  split
  · simp
  · exact hr

omit [DecidableEq R] in
theorem OthersIdle.put {p : ℕ} {s : Sys R A I N D X C} (h : OthersIdle p s)
    (pr : Proc R A I N D X C) : OthersIdle p (s.put p pr) := h

/-- The process `p` can take steps up to an outcome, with these contents. -/
def Finishes (M : Model R A I N D X C E) (p : ℕ) (c : C) (s : Sys R A I N D X C)
    (outcome : Except X Unit × Solo A D) : Prop :=
  ∃ (acts : List I) (s' : Sys R A I N D X C) (mark : Option N),
    M.run (acts.map (.exec p)) s = some s' ∧
    s'.proc p = some ⟨c, .ofOutcome outcome.1, outcome.2.pending, mark⟩ ∧ s'.db = outcome.2.db

theorem Finishes.step {p : ℕ} {c : C} {s s' : Sys R A I N D X C} {pr : Proc R A I N D X C}
    {outcome : Except X Unit × Solo A D} (i : I) (hproc : s.proc p = some pr)
    (hexec : M.exec p i s pr = some s') (h : Finishes M p c s' outcome) :
    Finishes M p c s outcome := by
  obtain ⟨acts, s'', mark, hrun, hrest⟩ := h
  refine ⟨i :: acts, s'', mark, ?_, hrest⟩
  simp only [List.map_cons, run, runBy, if_true, Model.step, hproc, Option.bind_some, hexec]
  exact hrun

/-- **A run alone is a run**: from a state in which no other process holds a lock the process can
take the steps of its program up to the outcome, in which its pending statements and the contents
are those of the run alone. -/
theorem run_alone (answer : ℕ → I) (p : ℕ) (c : C) (prog : Prog R A I N D X Unit)
    (σ : Solo A D) (mark : Option N) (s : Sys R A I N D X C) (hdb : s.db = σ.db)
    (hproc : s.proc p = some ⟨c, prog, σ.pending, mark⟩) (hidle : OthersIdle p s) :
    Finishes M p c s (prog.alone M.schema answer σ) := by
  have hview : M.schema.view σ.pending s.db = σ.view M.schema := by rw [hdb, Solo.view]
  induction prog generalizing σ mark s with
  | ret a => exact ⟨[], s, mark, rfl, hproc, hdb⟩
  | raise x => exact ⟨[], s, mark, rfl, hproc, hdb⟩
  | ask k ih =>
    refine .step (answer σ.asked) hproc rfl ?_
    exact ih _ { σ with asked := σ.asked + 1 } mark _ hdb (by simp) (hidle.put _) hview
  | read k ih =>
    refine .step (answer σ.asked) hproc rfl ?_
    rw [hview]
    exact ih _ _ mark _ hdb (by simp) (hidle.put _) hview
  | lock r q k ih =>
    simp only [Prog.alone]
    cases hq : q (σ.view M.schema) with
    | true =>
      have hexec : M.exec p (answer σ.asked) s ⟨c, .lock r q k, σ.pending, mark⟩ =
          some ((s.acquire p [r]).put p ⟨c, k true, σ.pending, mark⟩) := by
        simp only [exec, hview, hq, if_true, hidle r]
      exact .step _ hproc hexec (ih _ _ mark _ hdb (by simp) ((hidle.acquire _).put _) hview)
    | false =>
      have hexec : M.exec p (answer σ.asked) s ⟨c, .lock r q k, σ.pending, mark⟩ =
          some (s.put p ⟨c, k false, σ.pending, mark⟩) := by
        simp [exec, hview, hq]
      exact .step _ hproc hexec (ih _ _ mark _ hdb (by simp) (hidle.put _) hview)
  | lockSkip rs n k ih =>
    have hfree : (rs (σ.view M.schema)).filter (s.free p) = rs (σ.view M.schema) :=
      List.filter_eq_self.mpr fun r _ => hidle r
    refine .step (answer σ.asked) hproc rfl ?_
    rw [hview, hfree]
    exact ih _ _ mark _ hdb (by simp) ((hidle.acquire _).put _) hview
  | write a k ih =>
    have hall : (M.schema.target a).toList.all (s.free p) = true :=
      List.all_eq_true.mpr fun r _ => hidle r
    simp only [Prog.alone]
    cases hcheck : M.schema.check a (σ.view M.schema) with
    | true =>
      have hexec : M.exec p (answer σ.asked) s ⟨c, .write a k, σ.pending, mark⟩ =
          some ((s.acquire p (M.schema.target a).toList).put p
            ⟨c, k true, σ.pending ++ [a], mark⟩) := by
        simp only [exec, hview, hall, hcheck, if_true]
      refine .step _ hproc hexec ?_
      refine ih true { σ with pending := σ.pending ++ [a] } mark _ hdb (by simp)
        ((hidle.acquire _).put _) ?_
      rw [Solo.view, Sys.db_put, Sys.db_acquire, hdb]
    | false =>
      have hexec : M.exec p (answer σ.asked) s ⟨c, .write a k, σ.pending, mark⟩ =
          some ((s.acquire p (M.schema.target a).toList).put p
            ⟨c, k false, σ.pending, mark⟩) := by
        simp [exec, hview, hall, hcheck]
      exact .step _ hproc hexec (ih _ _ mark _ hdb (by simp) ((hidle.acquire _).put _) hview)
  | commit k ih =>
    simp only [Prog.alone]
    cases hreplay : M.schema.replay σ.pending σ.db with
    | ok d =>
      have hok : M.schema.replay σ.pending s.db = .ok d := by rw [hdb, hreplay]
      have hexec : M.exec p (answer σ.asked) s ⟨c, .commit k, σ.pending, mark⟩ =
          some ((({ s with db := d }).release p).put p ⟨c, k none, [], mark⟩) :=
        exec_commit_ok hok
      have hidle' : OthersIdle p (({ s with db := d }).release p) := hidle.release
      exact .step _ hproc hexec (ih none { σ with pending := [], db := d } mark _ rfl (by simp)
        (hidle'.put _) rfl)
    | error a =>
      have hexec : M.exec p (answer σ.asked) s ⟨c, .commit k, σ.pending, mark⟩ =
          some ((s.release p).put p ⟨c, k (some a), [], mark⟩) := by
        simp [exec, hdb, hreplay]
      exact .step _ hproc hexec (ih (some a) { σ with pending := [] } mark _ hdb (by simp)
        (hidle.release.put _) (by rw [Solo.view, Sys.db_put, Sys.db_release, hdb]))
  | rollback k ih =>
    refine .step (answer σ.asked) hproc rfl ?_
    exact ih { σ with pending := [] } mark _ hdb (by simp) (hidle.release.put _)
      (by rw [Solo.view, Sys.db_put, Sys.db_release, hdb])
  | note n k ih =>
    refine .step (answer σ.asked) hproc rfl ?_
    exact ih σ (some n) _ hdb (by simp) (hidle.put _) hview

end Model

end FinanceIntelligence
