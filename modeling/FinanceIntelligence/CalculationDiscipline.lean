import FinanceIntelligence.CalculationRun
import FinanceIntelligence.Knowledge

/-!
# What a calculation may commit

`CalcsWell` is what holds of the calculation tables between transactions: above all, **the
completed attempts and the calculations belong to each other one to one**. The lock on a request
protects its attempts. The lock on a fact protects the executions that the fact is an input of: none
of them is added by anybody else.

A session keeps the discipline if each of its commits adds a request, a failed attempt, or a
completed attempt together with its calculation. What follows for every interleaving of sessions
is in `CalculationRuns`.
-/

namespace FinanceIntelligence

/-- What holds of the calculation tables between transactions. -/
structure CalcsWell (d : CalcDb) : Prop where
  /-- there is one request with an id -/
  requestIds : d.requests.Pairwise fun r r' => r.id ≠ r'.id
  /-- and one of an organization with a fingerprint -/
  requestKeys : d.requests.Pairwise fun r r' =>
    ¬ (r.organizationId = r'.organizationId ∧ r.requestFingerprint = r'.requestFingerprint)
  /-- there is one attempt with an id -/
  attemptIds : d.attempts.Pairwise fun a a' => a.id ≠ a'.id
  /-- an attempt belongs to a request of its organization -/
  requested : ∀ a ∈ d.attempts, ∃ r ∈ d.requests,
    r.organizationId = a.organizationId ∧ r.id = a.calculationRequestId
  /-- **the attempts of a request are numbered from one on** -/
  numbered : ∀ r ∈ d.requests, (d.attemptsOf r.organizationId r.id).map (·.attemptNumber) =
    List.range' 1 (d.attemptsOf r.organizationId r.id).length
  /-- there is one calculation of an organization with a hash, and one with an attempt -/
  distinct : d.calculations.Pairwise fun c c' => ¬ (c.organizationId = c'.organizationId ∧
    (c.executionIdempotencyHash = c'.executionIdempotencyHash ∨
      c.calculationAttemptId = c'.calculationAttemptId))
  /-- **a calculation has a completed attempt** -/
  verified : ∀ c ∈ d.calculations, ∃ a ∈ d.attempts, CalcStmt.verified c a = true
  /-- **a completed attempt has a calculation** -/
  calculated : ∀ a ∈ d.attempts, a.status = .completed → ∃ c ∈ d.calculations,
    c.organizationId = a.organizationId ∧ c.calculationAttemptId = a.id

/-- Rows are added and never removed. -/
structure CalcsEvolve (d d' : CalcDb) : Prop where
  /-- requests stay -/
  requests : ∀ r ∈ d.requests, r ∈ d'.requests
  /-- attempts stay -/
  attempts : ∀ a ∈ d.attempts, a ∈ d'.attempts
  /-- calculations stay -/
  calculations : ∀ c ∈ d.calculations, c ∈ d'.calculations

theorem CalcsEvolve.refl (d : CalcDb) : CalcsEvolve d d :=
  ⟨fun _ h => h, fun _ h => h, fun _ h => h⟩

theorem CalcsEvolve.trans {d₁ d₂ d₃ : CalcDb} (h : CalcsEvolve d₁ d₂) (h' : CalcsEvolve d₂ d₃) :
    CalcsEvolve d₁ d₃ where
  requests r hr := h'.requests r (h.requests r hr)
  attempts a ha := h'.attempts a (h.attempts a ha)
  calculations c hc := h'.calculations c (h.calculations c hc)

/-- What the lock on a row protects. -/
def CalcRow.Agree (cfg : CalcConfig) : CalcRow → CalcDb → CalcDb → Prop
  | .request organizationId fingerprint, d, d' =>
    ∀ r : CalculationRequest, r.organizationId = organizationId →
      r.requestFingerprint = fingerprint →
        (r ∈ d'.requests ↔ r ∈ d.requests) ∧
        (r ∈ d.requests → d'.attemptsOf r.organizationId r.id = d.attemptsOf r.organizationId r.id)
  | .fact id, d, d' => ∀ p : ExecutionPayload, id ∈ p.factIds → ∀ c : Calculation,
      c.executionIdempotencyHash = cfg.executionHash p →
        (c ∈ d'.calculations ↔ c ∈ d.calculations)

variable {cfg : CalcConfig}

theorem CalcRow.Agree.refl (r : CalcRow) (d : CalcDb) : r.Agree cfg d d := by
  cases r with
  | request org fp => exact fun _ _ _ => ⟨Iff.rfl, fun _ => rfl⟩
  | fact id => exact fun _ _ _ _ => Iff.rfl

theorem CalcRow.Agree.trans {r : CalcRow} {d₁ d₂ d₃ : CalcDb} (h : r.Agree cfg d₁ d₂)
    (h' : r.Agree cfg d₂ d₃) : r.Agree cfg d₁ d₃ := by
  cases r with
  | request org fp =>
    intro r horg hfp
    obtain ⟨hmem, hattempts⟩ := h r horg hfp
    obtain ⟨hmem', hattempts'⟩ := h' r horg hfp
    exact ⟨hmem'.trans hmem, fun hr => (hattempts' (hmem.mpr hr)).trans (hattempts hr)⟩
  | fact id => exact fun p hp c hc => (h' p hp c hc).trans (h p hp c hc)

/-- The discipline of the calculations. -/
def calcDiscipline (cfg : CalcConfig) : Discipline (calcModel cfg) where
  agree := CalcRow.Agree cfg
  agree_refl := CalcRow.Agree.refl
  agree_trans _ _ _ _ := CalcRow.Agree.trans
  inv := CalcsWell
  evolves := CalcsEvolve
  evolves_refl := CalcsEvolve.refl
  evolves_trans _ _ _ := CalcsEvolve.trans
  guar _ _ := CalcsEvolve
  guar_evolves _ _ _ _ h := h
  noted _ n _ := n.elim
  raised _ _ := True
  sound _ := False

end FinanceIntelligence
