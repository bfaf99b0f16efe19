import FinanceIntelligence.CalculationDiscipline
import FinanceIntelligence.Numbering
import Mathlib.Data.List.Pairwise

/-!
# The commits of a calculation

What a run commits, statement by statement: requests, a failed attempt, or an attempt with its
calculation and their lineage. Each keeps `CalcsWell`, and leaves alone what is locked by others.

These are facts about statements and tables; what a run knows when it executes them is in
`CalculationCalls`.
-/

namespace FinanceIntelligence

open CalcStmt

/-! ## Attempts -/

namespace CalcDb

variable {d : CalcDb}

/-- An attempt of the request is added. -/
theorem attemptsOf_insert_self (a : CalculationAttempt) :
    (CalcStmt.apply (.insertAttempt a) d).attemptsOf a.organizationId a.calculationRequestId =
      d.attemptsOf a.organizationId a.calculationRequestId ++ [a] := by
  simp [attemptsOf, CalcStmt.apply]

/-- An attempt of another request is added. -/
theorem attemptsOf_insert_of_ne {a : CalculationAttempt} {org id : Uuid}
    (h : ¬ (a.organizationId = org ∧ a.calculationRequestId = id)) :
    (CalcStmt.apply (.insertAttempt a) d).attemptsOf org id = d.attemptsOf org id := by
  have hne : [a].filter (fun a => a.organizationId == org && a.calculationRequestId == id) = [] :=
    List.filter_eq_nil_iff.mpr fun x hx => by
      rw [List.mem_singleton.mp hx]
      simpa using h
  simp only [attemptsOf, CalcStmt.apply, List.filter_append, hne, List.append_nil]

/-- The largest attempt number is the number of attempts. -/
theorem maxAttemptNumber_of_numbered {org id : Uuid}
    (h : (d.attemptsOf org id).map (·.attemptNumber) =
      List.range' 1 (d.attemptsOf org id).length) :
    d.maxAttemptNumber org id = (d.attemptsOf org id).length :=
  Numbering.Counts.foldl_max h

end CalcDb

namespace CalcsWell

variable {d : CalcDb}

theorem eq_of_requestId (h : CalcsWell d) {r r' : CalculationRequest} (hr : r ∈ d.requests)
    (hr' : r' ∈ d.requests) (hid : r.id = r'.id) : r = r' := by
  by_contra hne
  have : Std.Symm fun r r' : CalculationRequest => r.id ≠ r'.id := ⟨fun _ _ => Ne.symm⟩
  exact h.requestIds.forall hr hr' hne hid

theorem eq_of_attemptId (h : CalcsWell d) {a a' : CalculationAttempt} (ha : a ∈ d.attempts)
    (ha' : a' ∈ d.attempts) (hid : a.id = a'.id) : a = a' := by
  by_contra hne
  have : Std.Symm fun a a' : CalculationAttempt => a.id ≠ a'.id := ⟨fun _ _ => Ne.symm⟩
  exact h.attemptIds.forall ha ha' hne hid

/-- Two calculations of an organization have neither the hash nor the attempt in common. -/
theorem eq_of_organization (h : CalcsWell d) {c c' : Calculation} (hc : c ∈ d.calculations)
    (hc' : c' ∈ d.calculations) (horg : c.organizationId = c'.organizationId)
    (heq : c.executionIdempotencyHash = c'.executionIdempotencyHash ∨
      c.calculationAttemptId = c'.calculationAttemptId) : c = c' := by
  by_contra hne
  have : Std.Symm fun c c' : Calculation => ¬ (c.organizationId = c'.organizationId ∧
      (c.executionIdempotencyHash = c'.executionIdempotencyHash ∨
        c.calculationAttemptId = c'.calculationAttemptId)) :=
    ⟨fun _ _ hxy hyx => hxy ⟨hyx.1.symm, hyx.2.imp Eq.symm Eq.symm⟩⟩
  exact h.distinct.forall hc hc' hne ⟨horg, heq⟩

/-- A request that is not there has no attempts. -/
theorem attemptsOf_eq_nil (h : CalcsWell d) {org id : Uuid}
    (hid : ∀ r ∈ d.requests, r.id ≠ id) : d.attemptsOf org id = [] := by
  refine List.filter_eq_nil_iff.mpr fun a ha hm => ?_
  simp only [Bool.and_eq_true, beq_iff_eq] at hm
  obtain ⟨r, hr, -, hrid⟩ := h.requested a ha
  exact hid r hr (hrid.trans hm.2)

end CalcsWell

/-! ## Lawful commits -/

variable {cfg : CalcConfig} {rows : List CalcRow} {d d' : CalcDb}

/-- What a commit owes the others. -/
structure LawfulCalc (cfg : CalcConfig) (rows : List CalcRow) (d d' : CalcDb) : Prop where
  /-- what is locked by others stays -/
  agree : ∀ r, r ∉ rows → r.Agree cfg d d'
  /-- the tables stay well formed -/
  well : CalcsWell d'
  /-- rows are added only -/
  evolves : CalcsEvolve d d'

theorem LawfulCalc.trans {d'' : CalcDb} (h : LawfulCalc cfg rows d d')
    (h' : LawfulCalc cfg rows d' d'') : LawfulCalc cfg rows d d'' where
  agree r hr := (h.agree r hr).trans (h'.agree r hr)
  well := h'.well
  evolves := h.evolves.trans h'.evolves

/-- The requests, the attempts and the calculations are the same. -/
structure SameRuns (d d' : CalcDb) : Prop where
  requests : d'.requests = d.requests
  attempts : d'.attempts = d.attempts
  calculations : d'.calculations = d.calculations

theorem SameRuns.attemptsOf (h : SameRuns d d') (org id : Uuid) :
    d'.attemptsOf org id = d.attemptsOf org id := by
  rw [CalcDb.attemptsOf, CalcDb.attemptsOf, h.attempts]

theorem CalcsWell.same (hd : CalcsWell d) (h : SameRuns d d') : CalcsWell d' where
  requestIds := h.requests ▸ hd.requestIds
  requestKeys := h.requests ▸ hd.requestKeys
  attemptIds := h.attempts ▸ hd.attemptIds
  requested := by
    rw [h.attempts, h.requests]
    exact hd.requested
  numbered r hr := by
    rw [h.requests] at hr
    rw [h.attemptsOf]
    exact hd.numbered r hr
  distinct := h.calculations ▸ hd.distinct
  verified := by
    rw [h.calculations, h.attempts]
    exact hd.verified
  calculated := by
    rw [h.calculations, h.attempts]
    exact hd.calculated

/-- Lineage is added. -/
theorem LawfulCalc.same (hd : CalcsWell d) (h : SameRuns d d') : LawfulCalc cfg rows d d' where
  agree r _ := by
    cases r with
    | request org fp =>
      exact fun r _ _ => ⟨by rw [h.requests], fun _ => h.attemptsOf _ _⟩
    | fact id => exact fun _ _ _ _ => by rw [h.calculations]
  well := hd.same h
  evolves := ⟨fun r hr => by rwa [h.requests], fun a ha => by rwa [h.attempts],
    fun c hc => by rwa [h.calculations]⟩

/-- A request is added by whoever holds its entry in the index. -/
theorem LawfulCalc.insertRequest (hd : CalcsWell d) {r : CalculationRequest}
    (hcheck : (CalcStmt.insertRequest r).check d = true)
    (hr : .request r.organizationId r.requestFingerprint ∈ rows) :
    LawfulCalc cfg rows d (CalcStmt.apply (.insertRequest r) d) := by
  have hfresh : ∀ x ∈ d.requests, x.id ≠ r.id ∧
      ¬ (x.organizationId = r.organizationId ∧ x.requestFingerprint = r.requestFingerprint) := by
    intro x hx
    have := List.all_eq_true.mp hcheck x hx
    simp only [Bool.and_eq_true, bne_iff_ne, Bool.not_eq_true', Bool.and_eq_false_iff,
      beq_eq_false_iff_ne] at this
    exact ⟨this.1, not_and_or.mpr this.2⟩
  refine ⟨fun row hrow => ?_, ?_, ?_⟩
  · cases row with
    | request org fp =>
      intro x horg hfp
      refine ⟨List.mem_append.trans (or_iff_left fun hx => ?_), fun _ => rfl⟩
      rw [← horg, ← hfp, List.mem_singleton.mp hx] at hrow
      exact hrow hr
    | fact id => exact fun _ _ _ _ => Iff.rfl
  · refine { hd with requestIds := ?_, requestKeys := ?_, requested := ?_, numbered := ?_ }
    · refine List.pairwise_append.mpr ⟨hd.requestIds, List.pairwise_singleton _ _, ?_⟩
      intro x hx y hy
      rw [List.mem_singleton.mp hy]
      exact (hfresh x hx).1
    · refine List.pairwise_append.mpr ⟨hd.requestKeys, List.pairwise_singleton _ _, ?_⟩
      intro x hx y hy
      rw [List.mem_singleton.mp hy]
      exact (hfresh x hx).2
    · intro a ha
      obtain ⟨x, hx, hxa⟩ := hd.requested a ha
      exact ⟨x, List.mem_append_left _ hx, hxa⟩
    · intro x hx
      rcases List.mem_append.mp hx with hx | hx
      · exact hd.numbered x hx
      · -- a new request has no attempts
        rw [List.mem_singleton.mp hx]
        change (d.attemptsOf _ _).map _ = List.range' 1 (d.attemptsOf _ _).length
        rw [hd.attemptsOf_eq_nil fun x hx => (hfresh x hx).1]
        rfl
  · exact ⟨fun x hx => List.mem_append_left _ hx, fun _ h => h, fun _ h => h⟩

/-- An attempt is the next one of a request that is locked. -/
structure NextAttempt (rows : List CalcRow) (d : CalcDb) (a : CalculationAttempt) : Prop where
  /-- the request is there, and locked -/
  request : ∃ r ∈ d.requests, .request r.organizationId r.requestFingerprint ∈ rows ∧
    r.organizationId = a.organizationId ∧ r.id = a.calculationRequestId
  /-- the number follows the last one -/
  number : a.attemptNumber =
    (d.attemptsOf a.organizationId a.calculationRequestId).length + 1

section Attempt

variable {a : CalculationAttempt} (hd : CalcsWell d) (hnext : NextAttempt rows d a)
  (hcheck : (CalcStmt.insertAttempt a).check d = true)

include hd hnext

/-- The requests that others have locked keep their attempts. -/
theorem NextAttempt.agree {org : Uuid} {fp : String} (hrow : .request org fp ∉ rows)
    {r : CalculationRequest} (hr : r ∈ d.requests) (horg : r.organizationId = org)
    (hfp : r.requestFingerprint = fp) :
    (CalcStmt.apply (.insertAttempt a) d).attemptsOf r.organizationId r.id =
      d.attemptsOf r.organizationId r.id := by
  refine CalcDb.attemptsOf_insert_of_ne fun ⟨_, hid⟩ => ?_
  obtain ⟨x, hx, hlock, -, hxid⟩ := hnext.request
  obtain rfl := hd.eq_of_requestId hr hx (hid.symm.trans hxid.symm)
  rw [horg, hfp] at hlock
  exact hrow hlock

/-- The attempts stay numbered. -/
theorem NextAttempt.numbered (r : CalculationRequest) (hr : r ∈ d.requests) :
    ((CalcStmt.apply (.insertAttempt a) d).attemptsOf r.organizationId r.id).map
        (·.attemptNumber) =
      List.range' 1 ((CalcStmt.apply (.insertAttempt a) d).attemptsOf r.organizationId
        r.id).length := by
  by_cases hra : a.organizationId = r.organizationId ∧ a.calculationRequestId = r.id
  · rw [← hra.1, ← hra.2, CalcDb.attemptsOf_insert_self, hra.1, hra.2]
    refine Numbering.Counts.concat (hd.numbered r hr) ?_
    rw [hnext.number, hra.1, hra.2]
  · rw [CalcDb.attemptsOf_insert_of_ne hra]
    exact hd.numbered r hr

/-- The attempt belongs to a request. -/
theorem NextAttempt.requested :
    ∀ x ∈ (CalcStmt.apply (.insertAttempt a) d).attempts, ∃ r ∈ d.requests,
      r.organizationId = x.organizationId ∧ r.id = x.calculationRequestId := by
  intro x hx
  rcases List.mem_append.mp hx with hx | hx
  · exact hd.requested x hx
  · rw [List.mem_singleton.mp hx]
    obtain ⟨r, hr, -, hra⟩ := hnext.request
    exact ⟨r, hr, hra⟩

omit hnext
include hcheck

/-- The ids stay distinct. -/
theorem attemptIds_insert :
    (CalcStmt.apply (.insertAttempt a) d).attempts.Pairwise fun a a' => a.id ≠ a'.id := by
  refine List.pairwise_append.mpr ⟨hd.attemptIds, List.pairwise_singleton _ _, ?_⟩
  intro x hx y hy
  rw [List.mem_singleton.mp hy]
  simp only [CalcStmt.check, Bool.and_eq_true, List.all_eq_true, bne_iff_ne] at hcheck
  exact (hcheck.1 x hx).1

include hnext

/-- A failed attempt is recorded. -/
theorem LawfulCalc.fail (hstatus : a.status = .failed) :
    LawfulCalc cfg rows d (CalcStmt.apply (.insertAttempt a) d) where
  agree row hrow := by
    cases row with
    | request org fp =>
      exact fun r horg hfp => ⟨Iff.rfl, fun hr => hnext.agree hd hrow hr horg hfp⟩
    | fact id => exact fun _ _ _ _ => Iff.rfl
  well := { hd with
    attemptIds := attemptIds_insert hd hcheck
    requested := hnext.requested hd
    numbered := hnext.numbered hd
    verified := fun c hc => by
      obtain ⟨x, hx, hv⟩ := hd.verified c hc
      exact ⟨x, List.mem_append_left _ hx, hv⟩
    calculated := fun x hx hcompleted => by
      rcases List.mem_append.mp hx with hx | hx
      · exact hd.calculated x hx hcompleted
      · rw [List.mem_singleton.mp hx, hstatus] at hcompleted
        cases hcompleted }
  evolves := ⟨fun _ h => h, fun _ h => List.mem_append_left _ h, fun _ h => h⟩

/-- **An attempt completes**: its calculation is committed with it. -/
theorem LawfulCalc.complete (hhashes : cfg.HashTellsFacts) {c c' : Calculation}
    {p : ExecutionPayload} (hattempt : a.id = c.calculationAttemptId)
    (horg : a.organizationId = c.organizationId) (hstored : c.stored = some c')
    (hhash : c.executionIdempotencyHash = cfg.executionHash p)
    (hfacts : ∀ id ∈ p.factIds, .fact id ∈ rows)
    (hcalc : (CalcStmt.insertCalculation c).check (CalcStmt.apply (.insertAttempt a) d) = true) :
    LawfulCalc cfg rows d
      (CalcStmt.apply (.insertCalculation c) (CalcStmt.apply (.insertAttempt a) d)) := by
  -- what the columns keep has the same identities
  have hid : c'.organizationId = c.organizationId ∧
      c'.executionIdempotencyHash = c.executionIdempotencyHash ∧
      c'.calculationAttemptId = c.calculationAttemptId := by
    simp only [Calculation.stored, Option.bind_eq_bind, Option.bind_eq_some_iff, Option.pure_def,
      Option.some.injEq] at hstored
    obtain ⟨_, -, _, -, _, -, rfl⟩ := hstored
    exact ⟨rfl, rfl, rfl⟩
  simp only [CalcStmt.check, Bool.and_eq_true, List.all_eq_true, List.any_eq_true,
    bne_iff_ne] at hcalc
  obtain ⟨⟨⟨-, x, hx, hverified⟩, hdistinct⟩, -⟩ := hcalc
  have hcalculations : (CalcStmt.apply (.insertCalculation c)
      (CalcStmt.apply (.insertAttempt a) d)).calculations = d.calculations ++ [c'] := by
    simp [CalcStmt.apply, hstored]
  -- the calculations of an execution whose facts others have locked stay
  have hagree : ∀ id, CalcRow.fact id ∉ rows → ∀ q : ExecutionPayload, id ∈ q.factIds →
      ∀ x : Calculation, x.executionIdempotencyHash = cfg.executionHash q →
        (x ∈ d.calculations ++ [c'] ↔ x ∈ d.calculations) := by
    intro id hrow q hq x hxq
    refine List.mem_append.trans (or_iff_left fun hxc => ?_)
    rw [List.mem_singleton.mp hxc, hid.2.1, hhash] at hxq
    exact hrow (hfacts id (hhashes _ _ hxq ▸ hq))
  refine ⟨fun row hrow => ?_, ?_, ?_⟩
  · cases row with
    | request org fp =>
      exact fun r horg hfp => ⟨Iff.rfl, fun hr => hnext.agree hd hrow hr horg hfp⟩
    | fact id =>
      intro q hq x hxq
      rw [hcalculations]
      exact hagree id hrow q hq x hxq
  · refine {
      requestIds := hd.requestIds
      requestKeys := hd.requestKeys
      attemptIds := attemptIds_insert hd hcheck
      requested := hnext.requested hd
      numbered := hnext.numbered hd
      distinct := ?_
      verified := fun y hy => ?_
      calculated := fun y hy hcompleted => ?_ }
    · rw [hcalculations]
      refine List.pairwise_append.mpr ⟨hd.distinct, List.pairwise_singleton _ _, ?_⟩
      intro y hy z hz
      rw [List.mem_singleton.mp hz, hid.1, hid.2.1, hid.2.2]
      have hne := (hdistinct y hy).2
      simp only [Bool.not_eq_true', Bool.and_eq_false_iff, Bool.or_eq_false_iff,
        beq_eq_false_iff_ne] at hne
      exact not_and_or.mpr (hne.imp id fun h => not_or.mpr h)
    · rw [hcalculations] at hy
      rcases List.mem_append.mp hy with hy | hy
      · obtain ⟨z, hz, hv⟩ := hd.verified y hy
        exact ⟨z, List.mem_append_left _ hz, hv⟩
      · refine ⟨x, hx, ?_⟩
        rw [List.mem_singleton.mp hy]
        simpa only [verified, hid.1, hid.2.1, hid.2.2] using hverified
    · rw [hcalculations]
      rcases List.mem_append.mp hy with hy | hy
      · obtain ⟨z, hz, hv⟩ := hd.calculated y hy hcompleted
        exact ⟨z, List.mem_append_left _ hz, hv⟩
      · refine ⟨c', List.mem_append_right _ List.mem_cons_self, ?_⟩
        rw [List.mem_singleton.mp hy, hid.1, hid.2.2]
        exact ⟨horg.symm, hattempt.symm⟩
  · refine ⟨fun _ h => h, fun _ h => List.mem_append_left _ h, fun x hx => ?_⟩
    rw [hcalculations]
    exact List.mem_append_left _ hx

end Attempt

/-! ## Lists of statements -/

/-- Statements that commit have passed their checks. -/
theorem calc_replay_cons {s : CalcStmt} {l : List CalcStmt}
    (h : calcSchema.replay (s :: l) d = .ok d') :
    s.check d = true ∧ calcSchema.replay l (s.apply d) = .ok d' :=
  calcSchema.replay_cons_eq_ok.mp h

/-- The requests that a session has added. -/
theorem LawfulCalc.requests {rs : List CalculationRequest} (hd : CalcsWell d)
    (hlock : ∀ r ∈ rs, .request r.organizationId r.requestFingerprint ∈ rows)
    (h : calcSchema.replay (rs.map .insertRequest) d = .ok d') :
    LawfulCalc cfg rows d d' ∧ d'.requests = d.requests ++ rs ∧ d'.attempts = d.attempts ∧
      d'.calculations = d.calculations := by
  induction rs generalizing d with
  | nil =>
    obtain rfl := Except.ok.inj h
    exact ⟨.same hd ⟨rfl, rfl, rfl⟩, (List.append_nil _).symm, rfl, rfl⟩
  | cons r rs ih =>
    obtain ⟨hcheck, h⟩ := calc_replay_cons h
    have hr : LawfulCalc cfg rows d _ := .insertRequest hd hcheck (hlock r List.mem_cons_self)
    obtain ⟨hrs, hreq, hatt, hcalc⟩ := ih hr.well
      (fun r hr => hlock r (List.mem_cons_of_mem _ hr)) h
    refine ⟨hr.trans hrs, ?_, hatt, hcalc⟩
    rw [hreq]
    simp [CalcStmt.apply]

/-- The statement concerns the lineage of a calculation. -/
def CalcStmt.isLineage : CalcStmt → Bool
  | .insertInput _ | .insertEvidence _ | .insertReconciliation _ => true
  | .insertRequest _ | .insertAttempt _ | .insertCalculation _ => false

/-- Lineage changes neither attempts nor calculations. -/
theorem sameRuns_view {l : List CalcStmt} (hl : ∀ s ∈ l, s.isLineage = true) :
    ∀ d, SameRuns d (calcSchema.view l d) := by
  induction l with
  | nil => exact fun d => ⟨rfl, rfl, rfl⟩
  | cons s l ih =>
    intro d
    have hs : SameRuns d (s.apply d) := by
      have := hl s List.mem_cons_self
      cases s with
      | insertRequest | insertAttempt | insertCalculation => cases this
      | insertInput | insertEvidence | insertReconciliation => exact ⟨rfl, rfl, rfl⟩
    have hrest := ih (fun s hs => hl s (List.mem_cons_of_mem _ hs)) (s.apply d)
    exact ⟨hrest.requests.trans hs.requests, hrest.attempts.trans hs.attempts,
      hrest.calculations.trans hs.calculations⟩

end FinanceIntelligence
