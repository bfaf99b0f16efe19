import FinanceIntelligence.CalculationCalls
import FinanceIntelligence.CalculationIdentity

/-!
# Runs of calculations

Any number of sessions run calculations, fail, and commit what is pending, while the rest of the
application writes facts, evidence and periods. In every state of such a run attempts and
calculations belong to each other one to one.

That a hash is taken for one execution only rests on SHA-256. What is needed of it is
`HashTellsFacts`, and this follows from the absence of collisions among the payloads, since the
bytes that are hashed tell the facts.

* `CalcConfig.hashTellsFacts_of_collisionFree` — **payloads without collision** tell their facts;
* `calculationRuns_recordedOnce` — attempts and calculations are **one to one** in every state.
-/

namespace FinanceIntelligence

open CalculationService

/-! ## What a hash tells -/

/-- A role as the payload writes it. -/
def InputRole.text : InputRole → List Char
  | numerator => "NUMERATOR".toList
  | denominator => "DENOMINATOR".toList
  | currentValue => "CURRENT_VALUE".toList
  | comparisonValue => "COMPARISON_VALUE".toList
  | periodIncome => "PERIOD_INCOME".toList
  | beginningBalance => "BEGINNING_BALANCE".toList
  | endingBalance => "ENDING_BALANCE".toList

/-- `comparison_policy` as the payload writes it. -/
def ComparisonPolicy.text : ComparisonPolicy → List Char
  | previousPeriod => "PREVIOUS_PERIOD".toList
  | previousYearSamePeriod => "PREVIOUS_YEAR_SAME_PERIOD".toList
  | explicitPeriod => "EXPLICIT_PERIOD".toList
  | other text => text.toList

namespace ExecutionPayload

variable {D : DoubleText} {str : ℚ → List Char} {p q : ExecutionPayload}

/-- What stands around the facts in the payload. -/
def frame (p : ExecutionPayload) : CalculationIdentity.Execution where
  organizationId := p.organizationId
  formulaCode := p.formulaCode.toList
  formulaVersion := "1.0.0".toList
  formulaSpecChecksum := p.formulaSpecChecksum.toList
  implementationChecksum := p.implementationChecksum.toList
  inputsByRole := ⟨[], List.nodup_nil⟩
  reportingPeriodId := p.reportingPeriodId
  comparisonPeriodId := p.comparisonPeriodId
  comparisonPolicy := p.comparisonPolicy.text

/-- An entry of `role_snapshots`; `str` prints the value. -/
def snapshot (str : ℚ → List Char) (x : RoleSnapshot) :
    List Char × CalculationIdentity.FactIdentity :=
  (x.role.text,
    { factId := x.factId
      revisionId := x.revisionId
      normalizedValue := str x.normalizedValue
      currency := some x.currency.toList
      unit := some x.unit.toList
      scale := some x.scale.toList
      reportingBasis := some (match x.reportingBasis with
        | .solo => "SOLO".toList
        | .consolidated => "CONSOLIDATED".toList) })

/-- The bytes that are hashed: the canonical JSON text of the payload. -/
def bytes (D : DoubleText) (str : ℚ → List Char) (p : ExecutionPayload) : List ℕ :=
  CalculationIdentity.preimage (.obj (p.frame.fieldsWith (p.inputs.map (snapshot str))) : PyJson D)

/-- The bytes tell the facts. -/
theorem factIds_eq_of_bytes_eq (h : p.bytes D str = q.bytes D str) : p.factIds = q.factIds := by
  have hinputs := congrArg
    (List.map fun (x : List Char × CalculationIdentity.FactIdentity) => x.2.factId)
    (CalculationIdentity.Execution.inputs_eq_of_preimage_eq p.frame q.frame _ h)
  rw [List.map_map, List.map_map] at hinputs
  exact hinputs

end ExecutionPayload

/-- **Payloads without collision tell their facts.** The hash of an execution is SHA-256 of the
bytes of its payload; as long as no two payloads collide, executions with one hash are about the
same facts, whatever way a value is printed. -/
theorem CalcConfig.hashTellsFacts_of_collisionFree {cfg : CalcConfig} {D : DoubleText}
    {str : ℚ → List Char} {sha256 : List ℕ → String}
    (hhash : ∀ p, cfg.executionHash p = sha256 (p.bytes D str))
    (hfree : ∀ p q : ExecutionPayload, sha256 (p.bytes D str) = sha256 (q.bytes D str) →
      p.bytes D str = q.bytes D str) : cfg.HashTellsFacts := by
  intro p q h
  rw [hhash, hhash] at h
  exact ExecutionPayload.factIds_eq_of_bytes_eq (hfree p q h)

variable {cfg : CalcConfig} {d₀ : CalcDb}

/-- A state of the calculations. -/
abbrev CalcSys := Sys CalcRow CalcStmt CalcAnswer Empty CalcDb CalcExc (List RunArgs)

/-- The tables are well formed in every state. -/
theorem calculation_well (hhashes : cfg.HashTellsFacts) (h₀ : CalcsWell d₀) {s : CalcSys}
    (h : (calcModel cfg).Reachable d₀ s) : CalcsWell s.db :=
  ((calculation_sound hhashes).safe h₀ h).inv

/-- The attempt of a calculation is the only one. -/
theorem CalcsWell.existsUnique_attempt {d : CalcDb} (h : CalcsWell d) {c : Calculation}
    (hc : c ∈ d.calculations) : ∃! a, a ∈ d.attempts ∧ a.organizationId = c.organizationId ∧
      a.id = c.calculationAttemptId ∧ a.status = .completed := by
  obtain ⟨a, ha, hv⟩ := h.verified c hc
  simp only [CalcStmt.verified, Bool.and_eq_true, beq_iff_eq] at hv
  obtain ⟨⟨⟨hid, horg⟩, hstatus⟩, -⟩ := hv
  refine ⟨a, ⟨ha, horg, hid, hstatus⟩, fun b hb => ?_⟩
  obtain ⟨hb, -, hbid, -⟩ := hb
  exact h.eq_of_attemptId hb ha (hbid.trans hid.symm)

/-- The calculation of a completed attempt is the only one. -/
theorem CalcsWell.existsUnique_calculation {d : CalcDb} (h : CalcsWell d)
    {a : CalculationAttempt} (ha : a ∈ d.attempts) (hstatus : a.status = .completed) :
    ∃! c, c ∈ d.calculations ∧ c.organizationId = a.organizationId ∧
      c.calculationAttemptId = a.id := by
  obtain ⟨c, hc, horg, hid⟩ := h.calculated a ha hstatus
  refine ⟨c, ⟨hc, horg, hid⟩, fun x ⟨hx, hxorg, hxid⟩ => ?_⟩
  exact h.eq_of_organization hx hc (hxorg.trans horg.symm) (.inr (hxid.trans hid.symm))

/-- **Calculation runs are recorded one to one**: a completed attempt has exactly one calculation
and a calculation exactly one completed attempt, an organization has at most one calculation with
an execution hash, and the attempts of a request are numbered from one on. -/
theorem calculationRuns_recordedOnce (hhashes : cfg.HashTellsFacts) (h₀ : CalcsWell d₀)
    {s : CalcSys} (h : (calcModel cfg).Reachable d₀ s) :
    (∀ a ∈ s.db.attempts, a.status = .completed → ∃! c, c ∈ s.db.calculations ∧
      c.organizationId = a.organizationId ∧ c.calculationAttemptId = a.id) ∧
    (∀ c ∈ s.db.calculations, ∃! a, a ∈ s.db.attempts ∧ a.organizationId = c.organizationId ∧
      a.id = c.calculationAttemptId ∧ a.status = .completed) ∧
    (∀ org hash, (s.db.executed org hash).length ≤ 1) ∧
    ∀ r ∈ s.db.requests, (s.db.attemptsOf r.organizationId r.id).map (·.attemptNumber) =
      List.range' 1 (s.db.attemptsOf r.organizationId r.id).length := by
  have hwell := calculation_well hhashes h₀ h
  refine ⟨fun a ha => hwell.existsUnique_calculation ha, fun c hc => hwell.existsUnique_attempt hc,
    fun org hash => ?_, hwell.numbered⟩
  -- two of them would have the organization and the hash in common
  have hpair := hwell.distinct.filter fun c =>
    c.organizationId == org && c.executionIdempotencyHash == hash
  change ((s.db.executed org hash).Pairwise _) at hpair
  have hmem : ∀ c ∈ s.db.executed org hash,
      c.organizationId = org ∧ c.executionIdempotencyHash = hash := by
    intro c hc
    simpa using (List.mem_filter.mp hc).2
  cases hl : s.db.executed org hash with
  | nil => exact Nat.zero_le 1
  | cons c l =>
    cases l with
    | nil => exact le_rfl
    | cons c' l =>
      rw [hl] at hpair hmem
      have hc := hmem c List.mem_cons_self
      have hc' := hmem c' (List.mem_cons_of_mem _ List.mem_cons_self)
      exact absurd ⟨hc.1.trans hc'.1.symm, .inl (hc.2.trans hc'.2.symm)⟩
        (List.rel_of_pairwise_cons hpair List.mem_cons_self)

/-! ## A ratio that is run three times -/

/-- The facts of an execution as a text. -/
def factsText (ids : List Uuid) : String :=
  String.ofList (joinPrefixed id (ids.map fun i => (uuidText i).toList))

theorem factsText_injective : Function.Injective factsText := by
  intro ids ids' h
  have hjoin := joinPrefixed_injective Function.injective_id (String.ofList_injective h)
  exact List.map_injective_iff.mpr (fun _ _ => uuidText_injective) hjoin

/-- The hash of the execution that is run. -/
def ratioHash : String := "f748ba3b9df952c5cfcfcef6581cb5c07fd3bb4555023b4eb9622224becc6347"

/-- The digests, as far as the ratio is concerned. -/
def ratioConfig : CalcConfig where
  requestFingerprint _ := "42c3056d888e0461d02bf02c1410a860fda5002487cfb20968c4259dd91f3194"
  executionHash p := if p.factIds = [12, 11] then ratioHash else factsText p.factIds
  specChecksum _ := "c9a17861eb8160fb9c6bd619fbd3de5c0b8c2c179a2df0102e960767bc50d64f"
  implementationChecksum _ := "4f4230dd8c16ff8332e874320b8932647eadcd97778425436cbc8eaee66699ae"
  chars := CharClass.ascii

/-- No list of facts has the hash as its text. -/
theorem factsText_ne_ratioHash (ids : List Uuid) : factsText ids ≠ ratioHash := by
  intro h
  have htext := congrArg String.toList h
  rw [factsText, String.toList_ofList] at htext
  cases hparts : ids.map fun i => (uuidText i).toList with
  | nil =>
    rw [hparts] at htext
    exact absurd htext (by decide)
  | cons p parts =>
    -- the colon after a length is no hexadecimal digit
    have hcolon : ':' ∈ joinPrefixed id (p :: parts) := by
      cases parts <;> simp [joinPrefixed, lengthPrefixed]
    rw [← hparts, htext] at hcolon
    exact absurd hcolon (by decide)

theorem ratioConfig_hashTellsFacts : ratioConfig.HashTellsFacts := by
  intro p q h
  simp only [ratioConfig] at h
  split at h <;> split at h
  · simp_all
  · exact absurd h.symm (factsText_ne_ratioHash _)
  · exact absurd h (factsText_ne_ratioHash _)
  · exact factsText_injective h

/-- A verified figure of a year. -/
def yearFigure (id candidate : Uuid) (metric : String) (value : ℚ) : FinancialFact where
  id := id
  organizationId := 1
  institutionId := 2
  reportingPeriodId := 3
  metricDefinitionId := id
  metricCode := metric
  value := value
  currency := "TRY"
  unit := "CURRENCY"
  scale := "ONE"
  normalizedValue := value
  reportingBasis := .solo
  sourceCandidateId := candidate
  sourceDocumentId := 40
  verifiedByUserId := some 9
  verifiedAt := 0
  supersedesFactId := none
  validFrom := 0
  valueOrigin := .sourceReported
  createdAt := 0

/-- A line of a CSV file. -/
def csvLine (id candidate : Uuid) : Uuid × EvidenceRow :=
  (id, { organizationId := 1, candidateId := candidate, sourceDocumentVersionId := 41
         rowIndex := some 1, columnIndex := some 2 })

/-- Loans and deposits of one year. -/
def ratioTables : ReferenceTables where
  formulaDefinitions :=
    [{ formulaCode := "LOAN_TO_DEPOSIT_RATIO"
       formulaSpecChecksum := some (ratioConfig.specChecksum .loanToDepositRatio)
       implementationChecksum := ratioConfig.implementationChecksum .loanToDepositRatio }]
  periods :=
    [{ id := 3, organizationId := 1, periodType := "YEAR", periodPresentation := .fullYear
       fiscalYear := 2024, startDate := 738885, endDate := 739250, comparisonKey := "FY" }]
  reviewed :=
    { candidates := fun _ => none
      facts := [yearFigure 11 21 "TOTAL_LOANS" 200, yearFigure 12 22 "TOTAL_DEPOSITS" 300]
      decisions := []
      evidence := []
      documentVersions :=
        [{ id := 41, organizationId := 1, documentId := 40, declaredMimeType := "text/csv"
           detectedMimeType := "text/csv" }]
      metricDefinitions := [] }
  evidence := [csvLine 31 21, csvLine 32 22]

/-- Nothing has been run. -/
def notRun (tables : ReferenceTables) : CalcDb where
  tables := tables
  requests := []
  attempts := []
  calculations := []
  inputs := []
  evidences := []
  reconciliations := []

theorem notRun_well (tables : ReferenceTables) : CalcsWell (notRun tables) where
  requestIds := .nil
  requestKeys := .nil
  attemptIds := .nil
  requested := nofun
  numbered := nofun
  distinct := .nil
  verified := nofun
  calculated := nofun

/-- The loans in relation to the deposits. -/
def ratioArgs : RunArgs where
  organizationId := 1
  requestedByUserId := 9
  formulaCode := "LOAN_TO_DEPOSIT_RATIO"
  institutionId := 2
  reportingPeriodId := 3

/-- Instructions of a process, with an identifier of its own for each. -/
def freshSteps (p n : ℕ) (first : Uuid) : List (Act CalcAnswer (List RunArgs) ReferenceTables) :=
  (List.range n).map fun k => .exec p { uuid := first + BitVec.ofNat 128 k, commits := true }

/-- One session fails and runs again after another one has completed: of two attempts one has a
calculation. -/
theorem calculationRuns_recordedOnce_ratio : ∃ s : CalcSys,
    s.db.attempts.map (fun a => (a.attemptNumber, a.status)) = [(1, .failed), (2, .completed)] ∧
    s.db.calculations.length = 1 ∧ (s.proc 1).isNone = true ∧
    ((∀ a ∈ s.db.attempts, a.status = .completed → ∃! c, c ∈ s.db.calculations ∧
      c.organizationId = a.organizationId ∧ c.calculationAttemptId = a.id) ∧
    (∀ c ∈ s.db.calculations, ∃! a, a ∈ s.db.attempts ∧ a.organizationId = c.organizationId ∧
      a.id = c.calculationAttemptId ∧ a.status = .completed) ∧
    (∀ org hash, (s.db.executed org hash).length ≤ 1) ∧
    ∀ r ∈ s.db.requests, (s.db.attemptsOf r.organizationId r.id).map (·.attemptNumber) =
      List.range' 1 (s.db.attemptsOf r.organizationId r.id).length) := by
  have hrun : (((calcModel ratioConfig).run
      (.spawn 1 [ratioArgs, ratioArgs] :: freshSteps 1 6 1000 ++
        .exec 1 { uuid := 1006, fails := true } :: freshSteps 1 18 1007 ++
        .spawn 0 [ratioArgs] :: freshSteps 0 55 100 ++ freshSteps 1 27 2000)
      (Model.idle (notRun ratioTables))).map fun s =>
        decide (s.db.attempts.map (fun a => (a.attemptNumber, a.status)) =
            [(1, .failed), (2, .completed)] ∧
          s.db.calculations.length = 1 ∧ (s.proc 1).isNone = true)) = some true := by
    decide +kernel
  obtain ⟨s, hs, h⟩ := Option.map_eq_some_iff.mp hrun
  obtain ⟨hattempts, hcalculations, hproc⟩ := of_decide_eq_true h
  have hreach : (calcModel ratioConfig).Reachable (notRun ratioTables) s :=
    Model.ReachableBy.later .start (Model.LaterBy.of_runBy (fun _ _ _ => trivial) hs)
  exact ⟨s, hattempts, hcalculations, hproc, calculationRuns_recordedOnce
    ratioConfig_hashTellsFacts (notRun_well ratioTables) hreach⟩

end FinanceIntelligence
