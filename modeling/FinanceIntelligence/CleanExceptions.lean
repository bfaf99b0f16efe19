import FinanceIntelligence.Transaction

/-!
# Exceptions that leave nothing behind

A general layer over `Transaction`. A program that commits and then raises has
changed the contents although its caller sees an exception. `RaisesClean P` rules
that out for all statements but those of a harmless kind `P`: a commit of any
other statement is not followed by an exception. It is a property of the text of
a program; `raises_clean` says what it means in a run.
-/

namespace FinanceIntelligence

variable {R A I N D X C E : Type}

namespace Prog

variable {α β : Type}

/-- The program cannot raise. -/
def NeverRaises : Prog R A I N D X α → Prop
  | .ret _ => True
  | .raise _ => False
  | .ask k => ∀ i, (k i).NeverRaises
  | .read k => ∀ d, (k d).NeverRaises
  | .lock _ _ k => ∀ b, (k b).NeverRaises
  | .lockSkip _ _ k => ∀ l, (k l).NeverRaises
  | .write _ k => ∀ b, (k b).NeverRaises
  | .commit k => ∀ e, (k e).NeverRaises
  | .rollback k => k.NeverRaises
  | .note _ k => k.NeverRaises

/-- The program, with the statements `l` pending, does not raise after it has
committed anything but statements of the kind `P`. -/
def RaisesClean (P : A → Prop) : List A → Prog R A I N D X α → Prop
  | _, .ret _ => True
  | _, .raise _ => True
  | l, .ask k => ∀ i, RaisesClean P l (k i)
  | l, .read k => ∀ d, RaisesClean P l (k d)
  | l, .lock _ _ k => ∀ b, RaisesClean P l (k b)
  | l, .lockSkip _ _ k => ∀ rows, RaisesClean P l (k rows)
  | l, .write a k => RaisesClean P (l ++ [a]) (k true) ∧ RaisesClean P l (k false)
  | l, .commit k =>
    ((k none).NeverRaises ∨ ∀ a ∈ l, P a) ∧ ∀ e, RaisesClean P [] (k e)
  | _, .rollback k => RaisesClean P [] k
  | l, .note _ k => RaisesClean P l k

/-- The program neither writes nor ends its transaction. -/
def Looks : Prog R A I N D X α → Prop
  | .ret _ => True
  | .raise _ => True
  | .ask k => ∀ i, (k i).Looks
  | .read k => ∀ d, (k d).Looks
  | .lock _ _ k => ∀ b, (k b).Looks
  | .lockSkip _ _ k => ∀ l, (k l).Looks
  | .write _ _ => False
  | .commit _ => False
  | .rollback _ => False
  | .note _ k => k.Looks

/-- What comes after a part that only looks. -/
theorem RaisesClean.bind {P : A → Prop} {l : List A} {p : Prog R A I N D X α}
    {f : α → Prog R A I N D X β} (hp : p.Looks) (hf : ∀ a, RaisesClean P l (f a)) :
    RaisesClean P l (p.bind f) := by
  induction p with
  | ret a => exact hf a
  | raise x => trivial
  | ask k ih => exact fun i => ih i (hp i)
  | read k ih => exact fun d => ih d (hp d)
  | lock r q k ih => exact fun b => ih b (hp b)
  | lockSkip rs n k ih => exact fun rows => ih rows (hp rows)
  | write a k => exact hp.elim
  | commit k => exact hp.elim
  | rollback k => exact hp.elim
  | note n k ih => exact ih hp

end Prog

namespace Model

variable [DecidableEq R] {M : Model R A I N D X C E}

/-- The process `pr`, finding the contents `d`, goes on as `pr'` and leaves `d'`. -/
inductive Continues (M : Model R A I N D X C E) (d : D) :
    Proc R A I N D X C → Proc R A I N D X C → D → Prop where
  | ask {c k l m} (i : I) : Continues M d ⟨c, .ask k, l, m⟩ ⟨c, k i, l, m⟩ d
  | read {c k l m} : Continues M d ⟨c, .read k, l, m⟩ ⟨c, k (M.schema.view l d), l, m⟩ d
  | lock {c r q k l m} (b : Bool) : Continues M d ⟨c, .lock r q k, l, m⟩ ⟨c, k b, l, m⟩ d
  | lockSkip {c rs n k l m} (rows : List R) :
      Continues M d ⟨c, .lockSkip rs n k, l, m⟩ ⟨c, k rows, l, m⟩ d
  | written {c a k l m} : Continues M d ⟨c, .write a k, l, m⟩ ⟨c, k true, l ++ [a], m⟩ d
  | refused {c a k l m} : Continues M d ⟨c, .write a k, l, m⟩ ⟨c, k false, l, m⟩ d
  | committed {c k l m} :
      Continues M d ⟨c, .commit k, l, m⟩ ⟨c, k none, [], m⟩ (M.schema.view l d)
  | failed {c k l m} (a : A) : Continues M d ⟨c, .commit k, l, m⟩ ⟨c, k (some a), [], m⟩ d
  | rollback {c k l m} : Continues M d ⟨c, .rollback k, l, m⟩ ⟨c, k, [], m⟩ d
  | note {c n k l m} : Continues M d ⟨c, .note n k, l, m⟩ ⟨c, k, l, some n⟩ d

/-- **Inversion of an instruction**: it ends the process, or the process goes on. -/
theorem exec_continues {p : ℕ} {i : I} {s s' : Sys R A I N D X C} {pr : Proc R A I N D X C}
    (h : M.exec p i s pr = some s') :
    s' = s.drop p ∨ ∃ pr', s'.proc = Function.update s.proc p (some pr') ∧
      Continues M s.db pr pr' s'.db := by
  obtain ⟨c, prog, l, m⟩ := pr
  cases prog with
  | ret a => exact .inl (Option.some.inj h).symm
  | raise x => exact .inl (Option.some.inj h).symm
  | ask k =>
    obtain rfl := Option.some.inj h
    exact .inr ⟨_, rfl, .ask i⟩
  | read k =>
    obtain rfl := Option.some.inj h
    exact .inr ⟨_, rfl, .read⟩
  | lock r q k =>
    simp only [exec] at h
    split at h
    · split at h
      · obtain rfl := Option.some.inj h
        exact .inr ⟨_, rfl, .lock true⟩
      · cases h
    · obtain rfl := Option.some.inj h
      exact .inr ⟨_, rfl, .lock false⟩
  | lockSkip rs n k =>
    obtain rfl := Option.some.inj h
    exact .inr ⟨_, rfl, .lockSkip _⟩
  | write a k =>
    simp only [exec] at h
    split at h
    · split at h
      · obtain rfl := Option.some.inj h
        exact .inr ⟨_, rfl, .written⟩
      · obtain rfl := Option.some.inj h
        exact .inr ⟨_, rfl, .refused⟩
    · cases h
  | commit k =>
    simp only [exec] at h
    split at h
    · rename_i d hd
      obtain rfl := Option.some.inj h
      obtain rfl := M.schema.replay_eq_ok hd
      exact .inr ⟨_, rfl, .committed⟩
    · obtain rfl := Option.some.inj h
      exact .inr ⟨_, rfl, .failed _⟩
  | rollback k =>
    obtain rfl := Option.some.inj h
    exact .inr ⟨_, rfl, .rollback⟩
  | note n k =>
    obtain rfl := Option.some.inj h
    exact .inr ⟨_, rfl, .note⟩

/-- **Inversion of a step**: a process is as it was, or new, or it took the step. -/
theorem step_process {a : Act I C E} {s s' : Sys R A I N D X C} (hs : M.step a s = some s')
    {q : ℕ} {pr' : Proc R A I N D X C} (hq : s'.proc q = some pr') :
    s.proc q = some pr' ∨ (∃ c, a = .spawn q c ∧ pr' = ⟨c, M.body c, [], none⟩) ∨
      ∃ pr, s.proc q = some pr ∧ Continues M s.db pr pr' s'.db := by
  have hdrop : ∀ p, (s.drop p).proc q = some pr' → s.proc q = some pr' := by
    intro p hp
    by_cases hqp : q = p
    · subst hqp
      simp at hp
    · rwa [Sys.proc_drop, Function.update_of_ne hqp] at hp
  cases a with
  | spawn p c =>
    simp only [step] at hs
    split at hs
    · obtain rfl := Option.some.inj hs
      by_cases hqp : q = p
      · subst hqp
        rw [Sys.proc_put, Function.update_self] at hq
        exact .inr (.inl ⟨c, rfl, (Option.some.inj hq).symm⟩)
      · rw [Sys.proc_put, Function.update_of_ne hqp] at hq
        exact .inl hq
    · cases hs
  | exec p i =>
    obtain ⟨pr, hp, hexec⟩ := Option.bind_eq_some_iff.mp hs
    obtain rfl | ⟨pr₁, hproc, hc⟩ := exec_continues hexec
    · exact .inl (hdrop p hq)
    · rw [hproc] at hq
      by_cases hqp : q = p
      · subst hqp
        rw [Function.update_self] at hq
        exact .inr (.inr ⟨pr, hp, Option.some.inj hq ▸ hc⟩)
      · rw [Function.update_of_ne hqp] at hq
        exact .inl hq
  | crash p =>
    obtain ⟨_, _, rfl⟩ := Option.map_eq_some_iff.mp hs
    exact .inl (hdrop p hq)
  | env e =>
    obtain rfl := Option.some.inj hs
    exact .inl hq

omit [DecidableEq R] in
/-- A process that cannot raise goes on so. -/
theorem Continues.neverRaises {d d' : D} {pr pr' : Proc R A I N D X C}
    (h : Continues M d pr pr' d') (hpr : pr.prog.NeverRaises) : pr'.prog.NeverRaises := by
  cases h with
  | ask i => exact hpr i
  | read => exact hpr _
  | lock b => exact hpr b
  | lockSkip rows => exact hpr rows
  | written => exact hpr true
  | refused => exact hpr false
  | committed => exact hpr none
  | failed a => exact hpr (some a)
  | rollback => exact hpr
  | note => exact hpr

omit [DecidableEq R] in
/-- A process that raises cleanly goes on so; it changes nothing, or cannot raise
any more, or commits harmless statements only. -/
theorem Continues.raisesClean {P : A → Prop} {d d' : D} {pr pr' : Proc R A I N D X C}
    (h : Continues M d pr pr' d') (hpr : pr.prog.RaisesClean P pr.pending) :
    pr'.prog.RaisesClean P pr'.pending ∧ (d' = d ∨ pr'.prog.NeverRaises ∨
      (∀ a ∈ pr.pending, P a) ∧ d' = M.schema.view pr.pending d) := by
  cases h with
  | ask i => exact ⟨hpr i, .inl rfl⟩
  | read => exact ⟨hpr _, .inl rfl⟩
  | lock b => exact ⟨hpr b, .inl rfl⟩
  | lockSkip rows => exact ⟨hpr rows, .inl rfl⟩
  | written => exact ⟨hpr.1, .inl rfl⟩
  | refused => exact ⟨hpr.2, .inl rfl⟩
  | committed => exact ⟨hpr.2 none, .inr (hpr.1.imp_right fun hl => ⟨hl, rfl⟩)⟩
  | failed a => exact ⟨hpr.2 (some a), .inl rfl⟩
  | rollback => exact ⟨hpr, .inl rfl⟩
  | note => exact ⟨hpr, .inl rfl⟩

/-- A property of single processes that every call has when it arrives, and that
no instruction takes away, holds of all processes. -/
theorem Reachable.processes {Q : Proc R A I N D X C → Prop} {d₀ : D}
    (hbody : ∀ c, Q ⟨c, M.body c, [], none⟩)
    (hstep : ∀ {d d' pr pr'}, Continues M d pr pr' d' → Q pr → Q pr')
    {s : Sys R A I N D X C} (h : M.Reachable d₀ s) : ∀ p pr, s.proc p = some pr → Q pr := by
  refine h.invariant (P := fun s => ∀ p pr, s.proc p = some pr → Q pr)
    (fun _ _ hp => by cases hp) fun {s s' a} _ ih _ hs q pr hq => ?_
  rcases step_process hs hq with hsame | ⟨c, -, rfl⟩ | ⟨pr₀, hq₀, hc⟩
  · exact ih q pr hsame
  · exact hbody c
  · exact hstep hc (ih q pr₀ hq₀)

/-- No call is given to the process `p`. -/
def NotSpawned (p : ℕ) (a : Act I C E) (_ : Sys R A I N D X C) : Prop := ∀ c, a ≠ .spawn p c

/-- A process that cannot raise never does. -/
theorem neverRaises_later {p : ℕ} {s s' : Sys R A I N D X C}
    (hlater : M.LaterBy (NotSpawned p) s s')
    (hs : ∀ pr, s.proc p = some pr → pr.prog.NeverRaises) :
    ∀ pr, s'.proc p = some pr → pr.prog.NeverRaises := by
  induction hlater with
  | refl => exact hs
  | tail _ hstep ih =>
    obtain ⟨a, hno, ha⟩ := hstep
    intro pr hpr
    rcases step_process ha hpr with hsame | ⟨c, hspawn, -⟩ | ⟨pr₀, hp₀, hc⟩
    · exact ih pr hsame
    · exact absurd hspawn (hno c)
    · exact hc.neverRaises (ih pr₀ hp₀)

/-- **Clean exceptions**: each step of a process that will raise changes nothing,
or commits harmless statements. -/
theorem raises_clean {P : A → Prop} (hbody : ∀ c, (M.body c).RaisesClean P []) {d₀ : D}
    {t t' s : Sys R A I N D X C} (ht : M.Reachable d₀ t) {p : ℕ} {i : I}
    (hstep : M.step (.exec p i) t = some t') (hlater : M.LaterBy (NotSpawned p) t' s)
    {pr : Proc R A I N D X C} (hp : s.proc p = some pr) {x : X} (hx : pr.prog = .raise x) :
    t'.db = t.db ∨ ∃ l, (∀ a ∈ l, P a) ∧ t'.db = M.schema.view l t.db := by
  obtain ⟨pr₀, hp₀, hexec⟩ := Option.bind_eq_some_iff.mp hstep
  have hclean : pr₀.prog.RaisesClean P pr₀.pending :=
    Reachable.processes (Q := fun pr => pr.prog.RaisesClean P pr.pending) hbody
      (fun hc hpr => (hc.raisesClean hpr).1) ht p pr₀ hp₀
  obtain rfl | ⟨pr', hproc, hc⟩ := exec_continues hexec
  · exact .inl rfl
  · rcases (hc.raisesClean hclean).2 with hsame | hnever | hharmless
    · exact .inl hsame
    · have hnever' : ∀ pr'', t'.proc p = some pr'' → pr''.prog.NeverRaises := by
        intro pr'' hpr''
        rw [hproc, Function.update_self] at hpr''
        rwa [← Option.some.inj hpr'']
      have := neverRaises_later hlater hnever' pr hp
      rw [hx] at this
      exact this.elim
    · exact .inr ⟨_, hharmless⟩

end Model

end FinanceIntelligence
