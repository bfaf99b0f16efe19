import FinanceIntelligence.FactReview
import FinanceIntelligence.VersionChain

/-!
# What a review may commit

`ReviewStep` lists what a committed review does: it notes a conflict on a pending
candidate, or it decides one, and then the facts are as they were or grow by
one. The facts of a natural key are the versions of it, so `VersionChain` says
what holds of them.

So reviews grow chains of versions, and do nothing else to the facts; that a chain has one current
version is a fact about chains and not about reviews.
-/

namespace FinanceIntelligence

open VersionChain FinancialFactService

/-- A fact as a version of its natural key. -/
def FinancialFact.version (f : FinancialFact) : Version Uuid FinancialFact.NaturalKey ℕ :=
  ⟨f.id, f.naturalKey, f.supersedesFactId, f.validFrom, f.validTo⟩

/-- The identity and the core of each fact. -/
def cores (l : List FinancialFact) : List (Uuid × FinancialFact.Core) :=
  l.map fun f => (f.id, f.core)

/-- What a review does to the facts. -/
inductive FactsChange (l l' : List FinancialFact) : Prop where
  /-- nothing -/
  | same (h : l' = l)
  /-- one more fact; the others keep their cores -/
  | grown (hg : Grows (l.map (·.version)) (l'.map (·.version))) (hcore : cores l <+: cores l')

/-- What a committed review does. -/
inductive ReviewStep (d d' : FactDb) : Prop where
  /-- a conflict was noted -/
  | noted (c : Uuid) (cand cand' : FinancialFactCandidate) (hc : d.candidates c = some cand)
      (hpending : cand.reviewStatus = .pending) (hid : cand'.id = cand.id)
      (hc' : cand'.reviewStatus = .pending)
      (hcands : d'.candidates = Function.update d.candidates c (some cand'))
      (hdecisions : d'.decisions = d.decisions) (hfacts : d'.facts = d.facts)
  /-- a candidate was decided -/
  | decided (c : Uuid) (cand cand' : FinancialFactCandidate) (hc : d.candidates c = some cand)
      (hpending : cand.reviewStatus = .pending) (hid : cand'.id = cand.id)
      (hc' : cand'.reviewStatus ≠ .pending) (hv : cand'.validationStatus ≠ .conflicted)
      (hcands : d'.candidates = Function.update d.candidates c (some cand'))
      (hdecisions : ∃ dec : FactReviewDecision, dec.candidateId = c ∧
        d'.decisions = d.decisions ++ [dec])
      (hfacts : FactsChange d.facts d'.facts)

/-- What holds of a candidate between transactions. -/
structure CandidateInv (decisions : List FactReviewDecision) (i : Uuid)
    (c : FinancialFactCandidate) : Prop where
  /-- the table is keyed by id -/
  keyed : c.id = i
  /-- a candidate in conflict is not decided -/
  conflicted : c.validationStatus = .conflicted → c.reviewStatus = .pending
  /-- there is one decision if it is decided, and else none -/
  decisions : decisions.countP (·.candidateId == i) = if c.reviewStatus = .pending then 0 else 1

/-- What holds of the contents between transactions. -/
structure ReviewInv (d : FactDb) : Prop where
  candidates : ∀ i c, d.candidates i = some c → CandidateInv d.decisions i c
  /-- the facts are versions of their natural keys -/
  chains : WellFormed (d.facts.map (·.version))

/-- One candidate is replaced; the other ones keep their decisions. -/
theorem ReviewInv.update {d d' : FactDb} (h : ReviewInv d) {c : Uuid}
    {cand' : FinancialFactCandidate}
    (hcands : d'.candidates = Function.update d.candidates c (some cand'))
    (hc' : CandidateInv d'.decisions c cand')
    (hother : ∀ i ≠ c, d'.decisions.countP (·.candidateId == i) =
      d.decisions.countP (·.candidateId == i))
    (hchains : WellFormed (d'.facts.map (·.version))) : ReviewInv d' := by
  refine ⟨fun i x hx => ?_, hchains⟩
  rw [hcands] at hx
  by_cases hi : i = c
  · subst hi
    rw [Function.update_self] at hx
    rwa [← Option.some.inj hx]
  · rw [Function.update_of_ne hi] at hx
    obtain ⟨hkeyed, hconflicted, hdecisions⟩ := h.candidates i x hx
    exact ⟨hkeyed, hconflicted, (hother i hi).trans hdecisions⟩

/-- **A review keeps the invariant.** -/
theorem ReviewStep.inv {d d' : FactDb} (hs : ReviewStep d d') (h : ReviewInv d) :
    ReviewInv d' := by
  cases hs with
  | noted c cand cand' hc hpending hid hc' hcands hdecisions hfacts =>
    obtain ⟨hkeyed, -, hcount⟩ := h.candidates c cand hc
    refine h.update hcands ⟨hid.trans hkeyed, fun _ => hc', ?_⟩ (by simp [hdecisions])
      (by rw [hfacts]; exact h.chains)
    rw [hdecisions, hcount, hpending, hc']
  | decided c cand cand' hc hpending hid hc' hv hcands hdecisions hfacts =>
    obtain ⟨hkeyed, -, hcount⟩ := h.candidates c cand hc
    obtain ⟨dec, hdec, hdecisions⟩ := hdecisions
    refine h.update hcands ⟨hid.trans hkeyed, fun hv' => absurd hv' hv, ?_⟩ (fun i hi => ?_) ?_
    · rw [hdecisions, List.countP_append, hcount, if_pos hpending, if_neg hc']
      simp [hdec]
    · rw [hdecisions, List.countP_append]
      simp [hdec, Ne.symm hi]
    · cases hfacts with
      | same h' =>
        rw [h']
        exact h.chains
      | grown hg => exact h.chains.grows hg

/-- The lock on a row protects the row. -/
def reviewDiscipline (cfg : ReviewConfig) : Discipline (reviewModel cfg) where
  agree
    | .candidate c, d, d' => d'.candidates c = d.candidates c
    | .fact f, d, d' => d'.fact f = d.fact f
  agree_refl r _ := by cases r <;> rfl
  agree_trans r _ _ _ h h' := by cases r <;> exact Eq.trans h' h
  inv := ReviewInv
  evolves _ _ := True
  evolves_refl _ := trivial
  evolves_trans _ _ _ _ _ := trivial
  guar _ _ := ReviewStep
  guar_evolves _ _ _ _ _ := trivial
  noted _ _ _ := True
  raised _ _ := True
  sound _ := False

end FinanceIntelligence
