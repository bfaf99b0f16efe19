import FinanceIntelligence.ComparisonSettled
import FinanceIntelligence.EvidenceLineage
import FinanceIntelligence.ReviewRuns

/-!
# Derived figures of another basis

Candidates are approved and calculations are run, and then banks are compared. A comparison of
consolidated figures shows a ratio of solo figures: nothing compares the basis of the inputs with
the one that is asked for.

* `Reached` — **the contents** that reviews and calculations lead to.
* `respectsRequest_settled` — **which answers respect their request**: those about settled figures.
-/

namespace FinanceIntelligence

/-- The contents after reviews. -/
def ComparisonDb.withReviewed (d : ComparisonDb) (reviewed : FactDb) : ComparisonDb :=
  { d with tables := { d.tables with tables := { d.tables.tables with reviewed } } }

/-- Nothing has been compared yet. -/
def ComparisonDb.notCompared (d : ComparisonDb) : ComparisonStore where
  db := d
  runs := []
  datasets := []
  datasets_run := forall_not_stored

namespace ComparisonService

/-- The contents that reviews and calculations lead to, any number at a time. -/
inductive Reached (reviews : ReviewConfig) (cfg : ComparisonConfig) (d₀ : ComparisonDb) :
    ComparisonDb → Prop where
  /-- nothing has happened yet -/
  | start : Reached reviews cfg d₀ d₀
  /-- candidates are approved, as new facts or as revisions, or rejected -/
  | reviewed {d : ComparisonDb} {s : ReviewSys} : Reached reviews cfg d₀ d →
      (reviewModel reviews).Reachable d.tables.tables.reviewed s →
        Reached reviews cfg d₀ (d.withReviewed s.db)
  /-- calculations are run, and nothing else is written meanwhile -/
  | calculated {d : ComparisonDb} {s : CalcSys} : Reached reviews cfg d₀ d →
      (calcModel cfg.digests).ReachableBy (fun a _ => ∀ t, a ≠ .env t) d.tables s →
        Reached reviews cfg d₀ { d with tables := s.db }

/-- **Which answers respect their request**: those about settled figures, and no others if every
row is shown. The query for derived figures looks neither at the basis nor at the end of validity,
so these figures have to agree with the request by themselves. -/
theorem respectsRequest_settled (cfg : ComparisonConfig) (organizationId : Uuid)
    (payload : ComparisonRequestDTO Uuid) (s : ComparisonStore) :
    (Settled cfg s.db organizationId payload → RespectsRequest cfg organizationId payload s) ∧
    ∀ order stamp response s',
      executeComparison cfg organizationId payload order stamp s = .ok (response, s') →
      KeyedFigures s.db → NothingCut cfg s.db organizationId payload →
        (RespectsRequest cfg organizationId payload s ↔
          Settled cfg s.db organizationId payload) :=
  ⟨respectsRequest_of_settled, fun _ _ _ _ h hkeys hcut =>
    ⟨settled_of_respectsRequest hkeys hcut h, respectsRequest_of_settled⟩⟩

/-! ## A ratio of solo figures -/

/-- A reported figure of a bank and a year. -/
def yearReport (id metric : Uuid) (value : ℚ) : FinancialFactCandidate :=
  { reportedCandidate id value with
    metricDefinitionId := some metric
    normalizedScale := "ONE"
    sourceDocumentId := 40
    sourceDocumentVersionId := 41 }

/-- Loans and deposits are reported, and nobody has reviewed them. -/
def reportedYear : ComparisonDb :=
  (bankYear { ratioTables with
    reviewed :=
      { candidates := fun i =>
          if i = 21 then some (yearReport 21 4 200)
          else if i = 22 then some (yearReport 22 5 300)
          else none
        facts := []
        decisions := []
        evidence := [(csvLine 31 21).2.toCandidateEvidence, (csvLine 32 22).2.toCandidateEvidence]
        documentVersions := ratioTables.reviewed.documentVersions
        metricDefinitions := [⟨4, "TOTAL_LOANS"⟩, ⟨5, "TOTAL_DEPOSITS"⟩] } }).db

/-- Both are approved. -/
def yearReviews : List (Act FactAnswer ReviewCall Empty) :=
  Model.serve 0 (.approve 1 21 9 none none) 14 { uuid := 11, now := 100 } ++
    Model.serve 1 (.approve 1 22 9 none none) 14 { uuid := 12, now := 101 }

/-- Then their ratio is calculated. -/
def calculatedYear : Option ComparisonDb :=
  ((reviewModel asciiReview).run yearReviews
    (Model.idle reportedYear.tables.tables.reviewed)).bind fun s =>
      let d := reportedYear.withReviewed s.db
      ((calcModel ratioConfig).runBy (fun a _ => match a with | .env _ => false | _ => true)
        (.spawn 0 [ratioArgs] :: freshSteps 0 55 100) (Model.idle d.tables)).map fun t =>
          { d with tables := t.db }

theorem reached_calculatedYear {d : ComparisonDb} (h : calculatedYear = some d) :
    Reached asciiReview asciiConfig reportedYear d := by
  obtain ⟨s, hs, h⟩ := Option.bind_eq_some_iff.mp h
  obtain ⟨t, ht, rfl⟩ := Option.map_eq_some_iff.mp h
  refine .calculated (.reviewed .start (Model.ReachableBy.later .start
    (Model.LaterBy.of_runBy (fun _ _ _ => trivial) hs))) (Model.ReachableBy.later .start
      (Model.LaterBy.of_runBy ?_ ht))
  rintro a s ha t rfl
  cases ha

/-- The ratio of a bank in a year, from derived figures of a basis. -/
def ratioRequest (basis : Literal reportingBases) : ComparisonRequestDTO Uuid :=
  { growthRequest with
    semantic_measures := ⟨[{ semantic_measure_code := "LOAN_TO_DEPOSIT_RATIO"
                             preferred_origin := ⟨"AUTO", auto_mem_preferredOrigins⟩ }], by decide⟩
    reporting_basis := basis
    value_source_policy := ⟨"SYSTEM_DERIVED_ONLY", by decide⟩ }

/-- The ratio is shown, and it is made of solo figures. -/
theorem consolidated_answered : ∃ d, calculatedYear = some d ∧ ∃ response s' c,
    executeComparison asciiConfig 1 (ratioRequest ⟨"CONSOLIDATED", by decide⟩) .inserted
      ⟨100, 101, 0⟩ d.notCompared = .ok (response, s') ∧
    compute asciiConfig d 1 (ratioRequest ⟨"CONSOLIDATED", by decide⟩) .inserted = .ok c ∧
    ∃ row ∈ c.rows, ∃ entry ∈ row.cells, entry.2.valueOrigin = .systemDerived ∧
      ∀ x ∈ d.tables.calculations, entry.2.calculationId = some x.id →
        ∃ i ∈ d.tables.inputs, i.calculationId = x.id ∧ i.reportingBasisSnapshot = .solo := by
  have hok : (calculatedYear.map fun d =>
      (executeComparison asciiConfig 1 (ratioRequest ⟨"CONSOLIDATED", by decide⟩) .inserted
        ⟨100, 101, 0⟩ d.notCompared).isOk) = some true := by decide +kernel
  have hsolo : (calculatedYear.map fun d =>
      (compute asciiConfig d 1 (ratioRequest ⟨"CONSOLIDATED", by decide⟩)
        .inserted).toOption.map fun c => decide (∃ row ∈ c.rows, ∃ entry ∈ row.cells,
          entry.2.valueOrigin = .systemDerived ∧
          ∀ x ∈ d.tables.calculations, entry.2.calculationId = some x.id →
            ∃ i ∈ d.tables.inputs, i.calculationId = x.id ∧ i.reportingBasisSnapshot = .solo)) =
      some (some true) := by decide +kernel
  obtain ⟨d, hd, hok⟩ := Option.map_eq_some_iff.mp hok
  obtain ⟨⟨response, s'⟩, h⟩ := exists_of_isOk hok
  obtain ⟨c, hc, -⟩ := executeComparison_eq_ok h
  rw [hd] at hsolo
  have hsolo := Option.some.inj hsolo
  dsimp only at hsolo
  rw [show compute asciiConfig d 1 _ _ = _ from hc] at hsolo
  exact ⟨d, hd, response, s', c, h, hc, of_decide_eq_true (Option.some.inj hsolo)⟩

/-- **Solo figures for consolidated ones**: the answer about the consolidated ratio refers to a
calculation of solo inputs. -/
theorem not_respectsRequest_consolidated : ∃ d, Reached asciiReview asciiConfig reportedYear d ∧
    ¬ RespectsRequest asciiConfig 1 (ratioRequest ⟨"CONSOLIDATED", by decide⟩) d.notCompared := by
  obtain ⟨d, hd, response, s', c, h, hc, row, hrow, entry, hentry, horigin, hsolo⟩ :=
    consolidated_answered
  refine ⟨d, reached_calculatedYear hd, fun hrespects => ?_⟩
  obtain ⟨c', hc', -, hright, -⟩ := hrespects _ _ _ _ h
  obtain rfl := Except.ok.inj (hc.symm.trans hc')
  obtain ⟨x, hx, hid, hinputs⟩ := hright row hrow entry hentry horigin
  obtain ⟨i, hi, hcalc, hbasis⟩ := hsolo x hx hid
  have htext := (hinputs i hi hcalc).1
  rw [hbasis] at htext
  exact absurd htext (by decide)

/-- The figures of the solo ratio are settled. -/
theorem settled_solo : ∃ d, calculatedYear = some d ∧
    Settled asciiConfig d 1 (ratioRequest ⟨"SOLO", by decide⟩) := by
  have hfigures : (calculatedYear.map fun d => decide (d.tables.calculations.length = 1 ∧
      ∀ i ∈ d.tables.inputs, i.reportingBasisSnapshot = .solo ∧
        ∃ f ∈ d.tables.facts, f.id = i.financialFactId ∧ f.isActive = true)) = some true := by
    decide +kernel
  obtain ⟨d, hd, hfigures⟩ := Option.map_eq_some_iff.mp hfigures
  obtain ⟨hlength, hinputs⟩ := of_decide_eq_true hfigures
  obtain ⟨c, hc⟩ := List.length_eq_one_iff.mp hlength
  refine ⟨d, hd, ?_⟩
  exact {
    reported := by
      intro inst _ period _ t _ htakes
      exact htakes.elim
    derived := by
      intro inst _ period _ t _ _ x y hx hy
      have hxc := hx.mem
      have hyc := hy.mem
      rw [hc, List.mem_singleton] at hxc hyc
      exact hx.eq_of_calculation hy (hxc.trans hyc.symm)
    inputs := by
      intro inst _ period _ t _ _ x _ i hi _
      obtain ⟨hbasis, hactive⟩ := hinputs i hi
      rw [hbasis]
      exact ⟨rfl, hactive⟩ }

/-- The answer about the solo ratio respects its request. -/
theorem respectsRequest_settled_solo : ∃ d, Reached asciiReview asciiConfig reportedYear d ∧
    RespectsRequest asciiConfig 1 (ratioRequest ⟨"SOLO", by decide⟩) d.notCompared := by
  obtain ⟨d, hd, hsettled⟩ := settled_solo
  exact ⟨d, reached_calculatedYear hd, (respectsRequest_settled asciiConfig 1
    (ratioRequest ⟨"SOLO", by decide⟩) d.notCompared).1 hsettled⟩

end ComparisonService

end FinanceIntelligence
