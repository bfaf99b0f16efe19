import FinanceIntelligence.Alone
import FinanceIntelligence.CalculationCalls

/-!
# A calculation that runs alone

What the parts of `CalculationService.run_calculation` come to when nothing else happens meanwhile.

Each part of it is one rule: what it returns is computed from what it sees, and what it writes is
pending afterwards. The modules on outcomes, lookups and second runs put these rules together.
-/

namespace FinanceIntelligence

open CalcProg

variable {cfg : CalcConfig} {α : Type} {answer : ℕ → CalcAnswer} {σ : Solo CalcStmt CalcDb}

namespace CalcProg

/-- A callee outside the model, by its answer. -/
theorem alone_attempt : attempt.alone calcSchema answer σ =
    (if (answer σ.asked).fails then .error .outside else .ok (),
      { σ with asked := σ.asked + 1 }) := by
  simp only [attempt, Prog.alone]
  split <;> rfl

/-- A `SELECT`, by what it finds. -/
theorem alone_select (q : CalcDb → α) : (select q).alone calcSchema answer σ =
    (if (answer σ.asked).fails then .error .outside else .ok (q (σ.view calcSchema)),
      { σ with asked := σ.asked + 1 }) := by
  rw [select, Prog.alone_bind, alone_attempt]
  by_cases hfails : (answer σ.asked).fails = true
  · simp [hfails]
  · simp only [hfails]
    rfl

/-- A function, by its value. -/
theorem alone_lift (e : Except CalcExc α) : (lift e).alone calcSchema answer σ = (e, σ) := by
  cases e <;> rfl

/-- A `SELECT` of one row finds one that the query finds. -/
theorem alone_selectOne_eq_ok {q : CalcDb → List α} {r : Option α}
    {σ' : Solo CalcStmt CalcDb} (h : (selectOne q).alone calcSchema answer σ = (.ok r, σ')) :
    q (σ.view calcSchema) = r.toList ∧ σ'.view calcSchema = σ.view calcSchema := by
  refine ⟨?_, (reads_selectOne q).view h⟩
  obtain ⟨l, σ₁, hl, h⟩ := Prog.alone_bind_eq_ok h
  rw [alone_select] at hl
  by_cases hfails : (answer σ.asked).fails = true
  · simp [hfails] at hl
  · simp only [hfails, Bool.false_eq_true, if_false, Prod.mk.injEq, Except.ok.injEq] at hl
    obtain ⟨rfl, rfl⟩ := hl
    generalize q (σ.view calcSchema) = l at h ⊢
    match l with
    | [] | [a] =>
      cases h
      rfl
    | _ :: _ :: _ => cases h

end CalcProg

namespace CalculationService

/-- The formula that was verified is the one that was asked for. -/
theorem formula_of_verifyFormula {args : RunArgs} {v : VerifiedFormula}
    {σ' : Solo CalcStmt CalcDb}
    (h : (verifyFormula cfg args).alone calcSchema answer σ = (.ok v, σ')) :
    Formula.getFormula args.formulaCode = .ok v.formula := by
  obtain ⟨f, σ₁, hf, h⟩ := Prog.alone_bind_eq_ok h
  rw [alone_lift, Prod.mk.injEq] at hf
  obtain ⟨definition, σ₂, -, h⟩ := Prog.alone_bind_eq_ok h
  cases definition with
  | none => cases h
  | some definition =>
    obtain ⟨checksums, σ₃, -, h⟩ := Prog.alone_bind_eq_ok h
    cases h
    exact hf.1

/-- **A failure is raised again** after it has been recorded. -/
theorem raises_handle (args : RunArgs) (hash : Option String)
    (checksums : Option (String × String)) (x : CalcExc) :
    (handle cfg args hash checksums x : CalcProg α).Raises calcSchema answer σ := by
  refine Prog.Raises.bind fun _ _ _ => Prog.Raises.bind fun _ _ _ => ?_
  exact ⟨_, rfl⟩

end CalculationService

end FinanceIntelligence
