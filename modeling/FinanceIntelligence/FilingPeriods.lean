import FinanceIntelligence.ExtractionRuns
import FinanceIntelligence.ReportingPeriods
import FinanceIntelligence.StepRuns

/-!
# The period of a filing

`extract_candidates` (fact_extraction_service.py) files the figures of a document under the
period that `find_reporting_period` finds for the date in its name. The lookup goes by a key that
keeps the year and the quarter of the date, and under this key there may be a period that ends
on another day of the quarter, or one that a reviewer made for something else.

* `candidates_filedUnder`, `RightlyFiled.candidates` — every candidate that an extraction adds
  **has the period that is found**;
* `firstEnding_after_iff` — the first period under a key stays the quarter that ends on a date
  exactly if a call that **adds the first one is for the date**;
* `filed_iff` — along a run of calls, filings are filed under quarters that end on their dates,
  and never two of different dates under one, exactly if the **first period under their key** is
  such a quarter;
* `filed_wrongly` — a filing of March is filed **under the period of one of February**.
-/

namespace FinanceIntelligence

namespace FactExtractionService

/-! ## The period of an extraction -/

variable (R : ReaderText) (periods : List StoredPeriod) (filing : Filing)

/-- What the name of a filing says. -/
def contextOf : DocumentContext :=
  parseDocumentContext R.chars.toCharClass R.letters filing.displayName

/-- The period that is looked up for a filing; without an institution there is none. -/
def filedUnder : Except CalcExc (Option StoredPeriod) :=
  match (contextOf R filing).institutionCode, (contextOf R filing).periodEnd with
  | some code, some periodEnd =>
    (findReportingPeriod periods filing.organizationId periodEnd).map fun period =>
      (filing.institution code).bind fun _ => period
  | _, _ => .ok none

/-- What the extraction of a filing raises. -/
inductive FilingError where
  /-- while its period is looked up -/
  | period (x : CalcExc)
  /-- while it is read -/
  | extraction (x : ExtractionError)

/-- `extract_candidates`, with the table of periods. -/
def extractFiling
    (provider : Option (ℕ → LlmFactExtractionService.Batch → List LlmFactExtractionService.ToolCall))
    (chunks : List Chunk) (rows : List CandidateRow) :
    Except FilingError (ExtractionSummary × List CandidateRow) :=
  match filedUnder R periods filing with
  | .error x => .error (.period x)
  | .ok period =>
    (extractCandidates R { filing with period := fun _ => period.map (·.id) } provider chunks
      rows).mapError .extraction

section Candidates

variable {R periods filing} {rows rows' : List CandidateRow} {institutionId periodId : Uuid}
  {context : DocumentContext}

/-- What is recorded has the period of its arguments. -/
theorem period_of_recordCandidate {d : Dictionary} {args : CandidateArgs} {row : CandidateRow}
    (h : recordCandidate R d rows args = .ok rows') (hrow : row ∈ rows') :
    row ∈ rows ∨ row.reportingPeriodId = args.reportingPeriodId := by
  obtain ⟨added, store, hcreate, rfl⟩ := recordCandidate_eq_ok.mp h
  rw [CandidateCreation.createCandidate] at hcreate
  split at hcreate
  · cases hcreate
    exact .inl hrow
  · obtain ⟨new, hnew, heq⟩ := exceptMap_eq_ok.mp hcreate
    obtain ⟨-, rfl⟩ := Prod.mk.inj heq
    rcases List.mem_append.mp hrow with hrow | hrow
    · exact .inl hrow
    · obtain ⟨-, _, _, _, _, _, -, -, -, -, -, rfl⟩ := CandidateCreation.newRow_eq_ok.mp hnew
      rw [List.mem_singleton.mp hrow]
      exact .inr rfl

/-- The rows of the table are old ones, or have the period. -/
def OldOrFiled (rows : List CandidateRow) (periodId : Uuid) (rows' : List CandidateRow) : Prop :=
  ∀ row ∈ rows', row ∈ rows ∨ row.reportingPeriodId = periodId

theorem OldOrFiled.record {d : Dictionary} {args : CandidateArgs} {rows'' : List CandidateRow}
    (hold : OldOrFiled rows periodId rows') (hargs : args.reportingPeriodId = periodId)
    (h : recordCandidate R d rows' args = .ok rows'') : OldOrFiled rows periodId rows'' := by
  intro row hrow
  rcases period_of_recordCandidate h hrow with hrow | hrow
  · exact hold row hrow
  · exact .inr (hrow.trans hargs)

theorem OldOrFiled.readTables {chunks : List Chunk} {s : Progress}
    (h : readTables R filing context institutionId periodId chunks rows = .ok s) :
    OldOrFiled rows periodId s.rows := by
  have hinit : OldOrFiled rows periodId ({ rows := rows } : Progress).rows := fun row h => .inl h
  refine foldlM_invariant (I := fun s : Progress => OldOrFiled rows periodId s.rows)
    (fun s chunk _ s' hs hstep => ?_) hinit h
  rw [chunkStep] at hstep
  split at hstep
  · obtain rfl := Except.ok.inj hstep
    exact hs
  · obtain ⟨lines, -, hlines⟩ := exceptBind_eq_ok.mp hstep
    refine foldlM_invariant (I := fun s : Progress => OldOrFiled rows periodId s.rows)
      (fun s line _ s' hs hstep => ?_) hs hlines
    rw [tableStep] at hstep
    split at hstep
    · obtain rfl := Except.ok.inj hstep
      exact hs
    · split at hstep
      · obtain rfl := Except.ok.inj hstep
        exact hs
      · obtain ⟨metric, -, hstep⟩ := exceptBind_eq_ok.mp hstep
        cases metric with
        | none =>
          obtain rfl := Except.ok.inj hstep
          exact hs
        | some metric =>
          obtain ⟨rows'', hrecord, hstep⟩ := exceptBind_eq_ok.mp hstep
          obtain rfl := Except.ok.inj hstep
          exact hs.record rfl hrecord

/-- The extraction adds candidates of the period that its filing refers to. -/
theorem oldOrFiled_of_extractCandidates {provider : Option (ℕ → LlmFactExtractionService.Batch →
      List LlmFactExtractionService.ToolCall)} {chunks : List Chunk} {summary : ExtractionSummary}
    (h : extractCandidates R filing provider chunks rows = .ok (summary, rows')) :
    rows' = rows ∨ ∃ institutionId periodId,
      referencesOf filing (contextOf R filing) = some (institutionId, periodId) ∧
        OldOrFiled rows periodId rows' := by
  rw [extractCandidates] at h
  dsimp only at h
  split at h
  · obtain ⟨-, rfl⟩ := Prod.mk.inj (Except.ok.inj h)
    exact .inl rfl
  · rename_i institutionId periodId hreferences
    refine .inr ⟨institutionId, periodId, hreferences, ?_⟩
    obtain ⟨s, hs, h⟩ := exceptBind_eq_ok.mp h
    have hold := OldOrFiled.readTables hs
    cases provider with
    | none =>
      obtain ⟨-, rfl⟩ := Prod.mk.inj (Except.ok.inj h)
      exact hold
    | some invoke =>
      dsimp only at h
      split at h
      · obtain ⟨-, rfl⟩ := Prod.mk.inj (Except.ok.inj h)
        exact hold
      · obtain ⟨⟨result, rows''⟩, hmodel, h⟩ := exceptBind_eq_ok.mp h
        obtain ⟨-, rfl⟩ := Prod.mk.inj (Except.ok.inj h)
        obtain ⟨result', -, hmodel⟩ := exceptBind_eq_ok.mp hmodel
        obtain ⟨stored, hfacts, hmodel⟩ := exceptBind_eq_ok.mp hmodel
        obtain ⟨-, rfl⟩ := Prod.mk.inj (Except.ok.inj hmodel)
        exact foldlM_invariant (I := OldOrFiled rows periodId)
          (fun _ _ _ _ hrows hstep => hrows.record rfl hstep) hold hfacts

/-- **Every candidate** that the extraction of a filing adds has the period that is found. -/
theorem candidates_filedUnder {provider : Option (ℕ → LlmFactExtractionService.Batch →
      List LlmFactExtractionService.ToolCall)} {chunks : List Chunk} {summary : ExtractionSummary}
    (h : extractFiling R periods filing provider chunks rows = .ok (summary, rows')) :
    ∀ row ∈ rows', row ∈ rows ∨ ∃ period, filedUnder R periods filing = .ok (some period) ∧
      row.reportingPeriodId = period.id := by
  intro row hrow
  rw [extractFiling] at h
  split at h
  · cases h
  · rename_i period hfiled
    rcases oldOrFiled_of_extractCandidates (exceptMapError_eq_ok.mp h) with
      rfl | ⟨institutionId, periodId, hreferences, hold⟩
    · exact .inl hrow
    · refine (hold row hrow).imp_right fun hperiod => ?_
      simp only [referencesOf, Option.bind_eq_some_iff, Option.map_eq_some_iff] at hreferences
      obtain ⟨_, -, _, -, _, -, _, ⟨p, rfl, rfl⟩, heq⟩ := hreferences
      obtain ⟨-, rfl⟩ := Prod.mk.inj heq
      exact ⟨p, hfiled, hperiod⟩

end Candidates

/-! ## Looking for a period -/

section Lookup

variable {R periods filing} {organizationId : Uuid} {d e : PyDate} {p q : StoredPeriod}

variable (organizationId d p) in
/-- The period has the key that is looked for. -/
def isUnder : Bool :=
  p.organizationId == organizationId &&
    p.comparisonKey == NormalizationService.generateComparisonKey "QUARTER" d.year (some d.quarter)

variable (d p) in
/-- "The quarterly period ending on this date". -/
def QuarterEnding : Prop :=
  p.periodType = "QUARTER" ∧ p.endDate = d.ordinal

variable (R filing d) in
/-- The date in the name of a filing of an institution that is known. -/
def AsksFor : Prop :=
  ∃ code, (contextOf R filing).institutionCode = some code ∧
    (contextOf R filing).periodEnd = some d ∧ (filing.institution code).isSome = true

theorem AsksFor.periodEnd (h : AsksFor R filing d) : (contextOf R filing).periodEnd = some d := by
  obtain ⟨_, -, hd, -⟩ := h
  exact hd

/-- A key is looked for that tells year and quarter. -/
theorem isUnder_iff {y : ℕ} {o : Option ℕ} (hkey : p.comparisonKey = String.ofList (keyText y o)) :
    isUnder organizationId d p = true ↔
      p.organizationId = organizationId ∧ y = d.year ∧ o = some d.quarter := by
  have hquarter : NormalizationService.generateComparisonKey "QUARTER" d.year (some d.quarter) =
      String.ofList (keyText d.year (some d.quarter)) := rfl
  simp only [isUnder, Bool.and_eq_true, beq_iff_eq, hkey, hquarter]
  refine and_congr_right fun _ => ⟨fun h => keyText_injective (String.ofList_injective h), ?_⟩
  rintro ⟨rfl, rfl⟩
  rfl

theorem isUnder_congr (hyear : e.year = d.year) (hquarter : e.quarter = d.quarter) :
    isUnder organizationId e p = isUnder organizationId d p := by
  rw [isUnder, isUnder, hyear, hquarter]

/-- The lookup, by the periods under the key. -/
theorem findReportingPeriod_eq : findReportingPeriod periods organizationId d =
    match periods.filter (isUnder organizationId d) with
    | [] => .ok none
    | [p] => .ok (some p)
    | _ => .error .multipleResultsFound := rfl

/-- A period is found if it is **the only one under its key**. -/
theorem findReportingPeriod_eq_some_iff :
    findReportingPeriod periods organizationId d = .ok (some p) ↔
      periods.filter (isUnder organizationId d) = [p] := by
  rw [findReportingPeriod_eq]
  match periods.filter (isUnder organizationId d) with
  | [] => simp
  | [_] => simp
  | _ :: _ :: _ => simp

theorem filedUnder_eq_some_iff :
    filedUnder R periods filing = .ok (some p) ↔ ∃ d, AsksFor R filing d ∧
      findReportingPeriod periods filing.organizationId d = .ok (some p) := by
  constructor
  · intro h
    rw [filedUnder] at h
    split at h
    · rename_i code d hcode hd
      obtain ⟨period, hfind, hperiod⟩ := exceptMap_eq_ok.mp h
      obtain ⟨_, hinstitution, rfl⟩ := Option.bind_eq_some_iff.mp hperiod
      exact ⟨d, ⟨code, hcode, hd, Option.isSome_of_eq_some hinstitution⟩, hfind⟩
    · cases h
  · rintro ⟨d, ⟨code, hcode, hd, hinstitution⟩, hfind⟩
    obtain ⟨_, hinstitution⟩ := Option.isSome_iff_exists.mp hinstitution
    simp only [filedUnder, hcode, hd, hfind]
    exact exceptMap_eq_ok.mpr ⟨some p, rfl, by rw [hinstitution]; rfl⟩

end Lookup

end FactExtractionService

/-! ## Calls -/

/-- A call that may add a period, with the id that it would get. -/
inductive PeriodCall where
  /-- `resolve_reporting_period` -/
  | resolve (organizationId id : Uuid) (periodEnd : PyDate)
  /-- `create_reporting_period` -/
  | create (organizationId id : Uuid) (dto : PeriodCreateDto)

namespace PeriodCall

open FactExtractionService

/-- The table after a call. -/
def after (periods : List StoredPeriod) : PeriodCall → List StoredPeriod
  | resolve organizationId id periodEnd =>
    match resolveReportingPeriod periods organizationId id periodEnd with
    | .ok (_, periods') => periods'
    | .error _ => periods
  | create organizationId id dto =>
    (createReportingPeriod periods organizationId id dto).getD periods

/-- The calls one after the other; each comes to an end. -/
def step (periods : List StoredPeriod) (call : PeriodCall) : Option (List StoredPeriod) :=
  some (call.after periods)

/-- The row of a call. -/
def row : PeriodCall → StoredPeriod
  | resolve organizationId id periodEnd => createdPeriod organizationId id periodEnd
  | create organizationId id dto =>
    { id := id
      organizationId := organizationId
      periodType := dto.periodType
      periodPresentation := .unknown
      fiscalYear := dto.fiscalYear
      startDate := dto.startDate.ordinal
      endDate := dto.endDate.ordinal
      comparisonKey := String.ofList (keyText dto.fiscalYear (dto.quarter.filter (· ≠ 0)))
      quarter := dto.quarter
      month := dto.month
      label := dto.label }

/-- The call is for the year and the quarter of a date. -/
def AboutQuarter (organizationId : Uuid) (d : PyDate) : PeriodCall → Prop
  | resolve organizationId' _ periodEnd =>
    organizationId' = organizationId ∧ periodEnd.year = d.year ∧ periodEnd.quarter = d.quarter
  | create organizationId' _ dto =>
    organizationId' = organizationId ∧ dto.fiscalYear = d.year ∧ dto.quarter = some d.quarter

/-- The call is for the quarter that ends on a date. -/
def MakesQuarter (d : PyDate) : PeriodCall → Prop
  | resolve _ _ periodEnd => periodEnd = d
  | create _ _ dto => dto.periodType = "QUARTER" ∧ dto.endDate = d

variable {periods : List StoredPeriod} {call : PeriodCall} {organizationId : Uuid} {d : PyDate}

/-- What a reviewer's call does, by its row. -/
theorem createReportingPeriod_eq (id : Uuid) (dto : PeriodCreateDto) :
    createReportingPeriod periods organizationId id dto =
      if dto.endDate.ordinal < dto.startDate.ordinal then none
      else if admitsPeriod periods (create organizationId id dto).row then
        some (periods ++ [(create organizationId id dto).row])
      else none := rfl

/-- The key of the row of a call. -/
theorem isUnder_row :
    isUnder organizationId d call.row = true ↔ call.AboutQuarter organizationId d := by
  cases call with
  | resolve organizationId' id periodEnd =>
    rw [isUnder_iff (y := periodEnd.year) (o := some periodEnd.quarter) rfl]
    simp only [AboutQuarter, Option.some.injEq]
    rfl
  | create organizationId' id dto =>
    -- no quarter that passes the check is zero
    have hquarter : dto.quarter.filter (· ≠ 0) = dto.quarter := by
      cases hq : dto.quarter with
      | none => rfl
      | some q =>
        have := dto.quarter_mem q hq
        exact if_pos (decide_eq_true (by omega))
    exact isUnder_iff (congrArg (fun o => String.ofList (keyText dto.fiscalYear o)) hquarter)

/-- The row of a call is the quarter that ends on a date if the call is for it. -/
theorem quarterEnding_row : QuarterEnding d call.row ↔ call.MakesQuarter d := by
  cases call with
  | resolve organizationId' id periodEnd =>
    exact ⟨fun h => PyDate.ordinal_injective h.2, fun h => ⟨rfl, congrArg PyDate.ordinal h⟩⟩
  | create organizationId' id dto =>
    exact and_congr_right fun _ => PyDate.ordinal_injective.eq_iff

variable (periods call) in
/-- A call leaves the table, or adds its row where the constraints admit it. -/
theorem after_eq_or : call.after periods = periods ∨
    admitsPeriod periods call.row = true ∧ call.after periods = periods ++ [call.row] := by
  cases call with
  | resolve organizationId' id periodEnd =>
    simp only [after, resolveReportingPeriod]
    rcases findReportingPeriod periods organizationId' periodEnd with e | (_ | p)
    · exact .inl rfl
    · dsimp only
      split_ifs with hadmits
      · exact .inr ⟨hadmits, rfl⟩
      · exact .inl rfl
    · exact .inl rfl
  | create organizationId' id dto =>
    rw [after, createReportingPeriod_eq]
    split_ifs with horder hadmits
    · exact .inl rfl
    · exact .inr ⟨hadmits, rfl⟩
    · exact .inl rfl

/-- **The first row under a key** is added where the constraints admit it. -/
theorem after_eq_append (hnone : ∀ p ∈ periods, isUnder organizationId d p = false)
    (habout : call.AboutQuarter organizationId d) (hadmits : admitsPeriod periods call.row = true) :
    call.after periods = periods ++ [call.row] := by
  cases call with
  | resolve organizationId' id periodEnd =>
    obtain ⟨rfl, hyear, hquarter⟩ := habout
    have hfilter : periods.filter (isUnder organizationId' periodEnd) = [] := by
      refine List.filter_eq_nil_iff.mpr fun p hp hunder => ?_
      rw [isUnder_congr hyear hquarter, hnone p hp] at hunder
      cases hunder
    have hfind : findReportingPeriod periods organizationId' periodEnd = .ok none := by
      rw [findReportingPeriod_eq, hfilter]
    have hadmits : admitsPeriod periods (createdPeriod organizationId' id periodEnd) = true :=
      hadmits
    simp only [after, resolveReportingPeriod, hfind, hadmits, if_true]
    rfl
  | create organizationId' id dto =>
    have horder : ¬ dto.endDate.ordinal < dto.startDate.ordinal := by
      simp only [admitsPeriod, Bool.and_eq_true, decide_eq_true_eq] at hadmits
      exact Nat.not_lt.mpr hadmits.1.1
    rw [after, createReportingPeriod_eq, if_neg horder, if_pos hadmits]
    rfl

end PeriodCall

namespace FactExtractionService

variable {R : ReaderText} {periods : List StoredPeriod} {filing filing' : Filing}
  {call : PeriodCall} {organizationId : Uuid} {d d' : PyDate} {p p' : StoredPeriod}

/-! ## The first period under a key -/

variable (organizationId d periods) in
/-- The first period under a key is the quarter that ends on the date. -/
def FirstEnding : Prop :=
  ∀ p, periods.find? (isUnder organizationId d) = some p → QuarterEnding d p

variable (organizationId d periods call) in
/-- The first period under a key is made for the date. -/
def FirstMadeFor : Prop :=
  (∀ p ∈ periods, isUnder organizationId d p = false) → admitsPeriod periods call.row = true →
    call.AboutQuarter organizationId d → call.MakesQuarter d

theorem firstEnding_nil : FirstEnding [] organizationId d := by
  intro p hp
  cases hp

/-- What is found is the first period under the key. -/
theorem FirstEnding.of_findReportingPeriod (h : FirstEnding periods organizationId d)
    (hfind : findReportingPeriod periods organizationId d = .ok (some p)) : QuarterEnding d p := by
  refine h p ?_
  rw [← List.head?_filter, findReportingPeriod_eq_some_iff.mp hfind]
  rfl

/-- **One call**: the first period under the key stays the right one exactly if the call, where it
adds this period, is for the date. -/
theorem firstEnding_after_iff (h : FirstEnding periods organizationId d) :
    FirstEnding (call.after periods) organizationId d ↔
      FirstMadeFor periods call organizationId d := by
  by_cases hnone : ∀ p ∈ periods, isUnder organizationId d p = false
  · have hfind : periods.find? (isUnder organizationId d) = none :=
      List.find?_eq_none.mpr fun p hp => by simp [hnone p hp]
    constructor
    · intro hafter _ hadmits habout
      rw [PeriodCall.after_eq_append hnone habout hadmits] at hafter
      refine PeriodCall.quarterEnding_row.mp (hafter call.row ?_)
      rw [List.find?_append, hfind, Option.none_or]
      exact List.find?_cons_of_pos (PeriodCall.isUnder_row.mpr habout)
    · intro hmade p hp
      rcases PeriodCall.after_eq_or periods call with hsame | ⟨hadmits, happend⟩
      · rw [hsame] at hp
        exact h p hp
      · rw [happend, List.find?_append, hfind, Option.none_or] at hp
        obtain rfl := List.mem_singleton.mp (List.mem_of_find?_eq_some hp)
        exact PeriodCall.quarterEnding_row.mpr
          (hmade hnone hadmits (PeriodCall.isUnder_row.mp (List.find?_some hp)))
  · refine iff_of_true (fun p hp => h p ?_) fun hnone' => absurd hnone' hnone
    -- the first period was there before
    rcases PeriodCall.after_eq_or periods call with hsame | ⟨-, happend⟩
    · rwa [hsame] at hp
    · push Not at hnone
      obtain ⟨q, hq, hunder⟩ := hnone
      obtain ⟨q', hq'⟩ := Option.isSome_iff_exists.mp (List.find?_isSome.mpr
        ⟨q, hq, Bool.ne_false_iff.mp hunder⟩)
      rwa [happend, List.find?_append, hq', Option.some_or, ← hq'] at hp

/-- **What is found** after a call is right exactly if the first period under the key is. -/
theorem found_after_iff (h : FirstEnding periods organizationId d) :
    (∀ p, findReportingPeriod (call.after periods) organizationId d = .ok (some p) →
      QuarterEnding d p) ↔ FirstEnding (call.after periods) organizationId d := by
  refine ⟨fun hfound => ?_, fun hfirst p => hfirst.of_findReportingPeriod⟩
  refine (firstEnding_after_iff h).mpr fun hnone hadmits habout => ?_
  refine PeriodCall.quarterEnding_row.mp (hfound _ (findReportingPeriod_eq_some_iff.mpr ?_))
  rw [PeriodCall.after_eq_append hnone habout hadmits, List.filter_append,
    List.filter_eq_nil_iff.mpr fun p hp => by simp [hnone p hp], List.nil_append]
  exact List.filter_cons_of_pos (PeriodCall.isUnder_row.mpr habout)

/-! ## Filings along a run -/

variable (R filing filing' periods call)

/-- A filing is filed under the quarter that ends on the date in its name. -/
def RightlyFiled : Prop :=
  ∀ d p, (contextOf R filing).periodEnd = some d → filedUnder R periods filing = .ok (some p) →
    QuarterEnding d p

/-- Two filings of different dates are not filed under one period. -/
def NeverShared : Prop :=
  ∀ d d' p p', (contextOf R filing).periodEnd = some d → (contextOf R filing').periodEnd = some d' →
    d ≠ d' → filedUnder R periods filing = .ok (some p) →
    filedUnder R periods filing' = .ok (some p') → p.id ≠ p'.id

/-- The first period under the key of a filing is made for its date. -/
def FirstMadeForFiling : Prop :=
  ∀ d, AsksFor R filing d → FirstMadeFor periods call filing.organizationId d

/-- The first period under the key of a filing is the quarter that ends on its date. -/
def FirstEndingForFiling : Prop :=
  ∀ d, AsksFor R filing d → FirstEnding periods filing.organizationId d

variable {R filing filing' periods call}

theorem rightlyFiled_iff : RightlyFiled R periods filing ↔ ∀ d, AsksFor R filing d →
    ∀ p, findReportingPeriod periods filing.organizationId d = .ok (some p) →
      QuarterEnding d p := by
  constructor
  · intro h d hasks p hfind
    exact h d p hasks.periodEnd (filedUnder_eq_some_iff.mpr ⟨d, hasks, hfind⟩)
  · intro h d p hd hfiled
    obtain ⟨e, hasks, hfind⟩ := filedUnder_eq_some_iff.mp hfiled
    obtain rfl : e = d := Option.some.inj (hasks.periodEnd.symm.trans hd)
    exact h e hasks p hfind

theorem firstEndingForFiling_after_iff (h : FirstEndingForFiling R periods filing) :
    FirstEndingForFiling R (call.after periods) filing ↔
      FirstMadeForFiling R periods filing call :=
  forall₂_congr fun d hasks => firstEnding_after_iff (h d hasks)

variable (call) in
theorem rightlyFiled_after_iff (h : FirstEndingForFiling R periods filing) :
    RightlyFiled R (call.after periods) filing ↔
      FirstEndingForFiling R (call.after periods) filing :=
  rightlyFiled_iff.trans (forall₂_congr fun d hasks => found_after_iff (h d hasks))

/-- A period that is found is in the table. -/
theorem mem_of_filedUnder (h : filedUnder R periods filing = .ok (some p)) : p ∈ periods := by
  obtain ⟨d, -, hfind⟩ := filedUnder_eq_some_iff.mp h
  refine (List.mem_filter (p := isUnder filing.organizationId d)).mp ?_ |>.1
  rw [findReportingPeriod_eq_some_iff.mp hfind]
  exact List.mem_singleton_self p

/-- Where filings are filed rightly and ids tell periods apart, no period is shared. -/
theorem neverShared (hids : (periods.map (·.id)).Nodup) (h : RightlyFiled R periods filing)
    (h' : RightlyFiled R periods filing') : NeverShared R periods filing filing' := by
  intro d d' p p' hd hd' hne hfiled hfiled' hid
  obtain rfl : p = p' :=
    List.inj_on_of_nodup_map hids (mem_of_filedUnder hfiled) (mem_of_filedUnder hfiled') hid
  exact hne (PyDate.ordinal_injective ((h d p hd hfiled).2.symm.trans (h' d' p hd' hfiled').2))

/-- The candidates of a filing that is filed rightly are of the quarter that ends on its date. -/
theorem RightlyFiled.candidates (h : RightlyFiled R periods filing)
    (hd : (contextOf R filing).periodEnd = some d)
    {provider : Option (ℕ → LlmFactExtractionService.Batch →
      List LlmFactExtractionService.ToolCall)} {chunks : List Chunk}
    {rows rows' : List CandidateRow} {summary : ExtractionSummary}
    (hrun : extractFiling R periods filing provider chunks rows = .ok (summary, rows')) :
    ∀ row ∈ rows', row ∈ rows ∨
      ∃ p ∈ periods, row.reportingPeriodId = p.id ∧ QuarterEnding d p := by
  intro row hrow
  refine (candidates_filedUnder hrun row hrow).imp_right ?_
  rintro ⟨p, hfiled, hid⟩
  exact ⟨p, mem_of_filedUnder hfiled, hid, h d p hd hfiled⟩

variable (call) in
/-- Ids tell periods apart. -/
theorem nodup_after (h : (periods.map (·.id)).Nodup) : ((call.after periods).map (·.id)).Nodup := by
  rcases PeriodCall.after_eq_or periods call with hsame | ⟨hadmits, happend⟩
  · rwa [hsame]
  · rw [happend, List.map_append, List.nodup_append]
    refine ⟨h, List.nodup_singleton _, fun id hid id' hid' => ?_⟩
    obtain ⟨p, hp, rfl⟩ := List.mem_map.mp hid
    obtain rfl := List.mem_singleton.mp hid'
    simp only [admitsPeriod, Bool.and_eq_true, List.all_eq_true, bne_iff_ne] at hadmits
    exact (hadmits.2 p hp).1

/-- What a run keeps: ids of their own, and the right first periods under the keys of two
filings. -/
structure Kept (R : ReaderText) (filing filing' : Filing) (periods : List StoredPeriod) : Prop where
  /-- ids tell periods apart -/
  ids : (periods.map (·.id)).Nodup
  /-- the first period under the key of the one -/
  first : FirstEndingForFiling R periods filing
  /-- the first period under the key of the other -/
  second : FirstEndingForFiling R periods filing'

/-- One call, for two filings. -/
theorem Kept.step (h : Kept R filing filing' periods) :
    (RightlyFiled R (call.after periods) filing ∧ RightlyFiled R (call.after periods) filing' ∧
        NeverShared R (call.after periods) filing filing' ↔
      FirstMadeForFiling R periods filing call ∧ FirstMadeForFiling R periods filing' call) ∧
    (RightlyFiled R (call.after periods) filing ∧ RightlyFiled R (call.after periods) filing' ∧
        NeverShared R (call.after periods) filing filing' →
      Kept R filing filing' (call.after periods)) := by
  have hids := nodup_after call h.ids
  have hfirst := rightlyFiled_after_iff call h.first
  have hsecond := rightlyFiled_after_iff call h.second
  refine ⟨⟨fun ⟨hfiled, hfiled', _⟩ => ?_, fun ⟨hmade, hmade'⟩ => ?_⟩,
    fun ⟨hfiled, hfiled', _⟩ => ⟨hids, hfirst.mp hfiled, hsecond.mp hfiled'⟩⟩
  · exact ⟨(firstEndingForFiling_after_iff h.first).mp (hfirst.mp hfiled),
      (firstEndingForFiling_after_iff h.second).mp (hsecond.mp hfiled')⟩
  · have hfiled := hfirst.mpr ((firstEndingForFiling_after_iff h.first).mpr hmade)
    have hfiled' := hsecond.mpr ((firstEndingForFiling_after_iff h.second).mpr hmade')
    exact ⟨hfiled, hfiled', neverShared hids hfiled hfiled'⟩

/-- **When filings are filed under their periods**: along a run of calls that may add periods, two
filings are filed under quarters that end on their dates, and under one period only if the dates
are the same, exactly if each call that adds the first period of their organization, year and
quarter adds the quarter that ends on the date. -/
theorem filed_iff (R : ReaderText) (calls : List PeriodCall) (filing filing' : Filing) :
    AlongRun PeriodCall.step (fun _ _ periods => RightlyFiled R periods filing ∧
        RightlyFiled R periods filing' ∧ NeverShared R periods filing filing') [] calls ↔
      AlongRun PeriodCall.step (fun periods call _ => FirstMadeForFiling R periods filing call ∧
        FirstMadeForFiling R periods filing' call) [] calls := by
  have hinit : Kept R filing filing' [] :=
    ⟨List.nodup_nil, fun _ _ => firstEnding_nil, fun _ _ => firstEnding_nil⟩
  refine AlongRun.iff (O := fun _ _ _ => True) (I := Kept R filing filing')
    (fun periods call periods' hkept hstep _ => ?_) (.of_forall (fun _ _ _ _ => trivial) _ _) hinit
  obtain rfl := Option.some.inj hstep
  exact hkept.step

/-- A filing of the 28th of February and one of the 31st of March. -/
def februaryAndMarch : Filing × Filing :=
  ({ vakbnFiling with displayName := "Solo_VAKBN_28.02.2026__TR.pdf".toList },
    { vakbnFiling with displayName := "Solo_VAKBN_31.03.2026__TR.pdf".toList })

/-- The last day of February 2026. -/
def february2026 : PyDate := ⟨2026, 2, 28, year_2026, by decide, by decide⟩

/-- The filing of March is filed under the period that was made for the one of February. -/
theorem filed_wrongly : ¬ ∀ (R : ReaderText) (calls : List PeriodCall) (filing filing' : Filing),
    AlongRun PeriodCall.step (fun _ _ periods => RightlyFiled R periods filing ∧
      RightlyFiled R periods filing' ∧ NeverShared R periods filing filing') [] calls := by
  intro h
  obtain ⟨-, hmarch, -⟩ := (h .ascii [.resolve 1 6 february2026] februaryAndMarch.1
    februaryAndMarch.2 _ rfl).1
  have hd : (contextOf .ascii februaryAndMarch.2).periodEnd =
      some ⟨2026, 3, 31, by decide, by decide, by decide⟩ := by decide
  have hcode : (contextOf .ascii februaryAndMarch.2).institutionCode = some "VAKBN".toList := by
    decide
  have hfind : findReportingPeriod [createdPeriod 1 6 february2026] 1
      ⟨2026, 3, 31, by decide, by decide, by decide⟩ =
        .ok (some (createdPeriod 1 6 february2026)) :=
    findReportingPeriod_eq_some_iff.mpr (List.filter_cons_of_pos (by decide))
  have hfiled := hmarch _ (createdPeriod 1 6 february2026) hd
    (filedUnder_eq_some_iff.mpr ⟨_, ⟨_, hcode, hd, rfl⟩, hfind⟩)
  exact absurd hfiled.2 (by decide)

end FactExtractionService

end FinanceIntelligence
