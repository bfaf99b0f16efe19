import FinanceIntelligence.CleanExceptions
import FinanceIntelligence.ReviewSafe

/-!
# Runs of reviews

The states that any number of reviewers reach from candidates that nobody has
reviewed. `ReviewsKept` is what holds in each of them: the facts form chains of
versions with one active version per natural key, what was committed stays, and
a review that raises has changed neither a fact nor a review status.
-/

namespace FinanceIntelligence

open VersionChain FactProg FinancialFactService

/-- A state of the reviews. -/
abbrev ReviewSys := Sys FactRow FactStmt FactAnswer Unit FactDb FactExc ReviewCall

/-- No review has happened yet. -/
structure FactDb.Unreviewed (d : FactDb) : Prop where
  /-- there is no fact -/
  facts : d.facts = []
  /-- there is no decision -/
  decisions : d.decisions = []
  /-- the candidates are keyed by id and wait for a decision -/
  candidates : ∀ i c, d.candidates i = some c → c.id = i ∧ c.reviewStatus = .pending

theorem FactDb.Unreviewed.inv {d : FactDb} (h : d.Unreviewed) : ReviewInv d where
  candidates i c hc := by
    obtain ⟨hid, hpending⟩ := h.candidates i c hc
    refine ⟨hid, fun _ => hpending, ?_⟩
    rw [h.decisions, if_pos hpending]
    rfl
  chains := by
    rw [h.facts]
    exact .nil

section Steps

variable {d d' : FactDb}

/-- A review keeps the facts there are, up to the end of their validity. -/
theorem ReviewStep.cores (h : ReviewStep d d') : cores d.facts <+: cores d'.facts := by
  cases h with
  | noted _ _ _ _ _ _ _ _ _ hfacts => exact hfacts ▸ List.prefix_rfl
  | decided _ _ _ _ _ _ _ _ _ _ hfacts =>
    cases hfacts with
    | same h => exact h ▸ List.prefix_rfl
    | grown _ hcore => exact hcore

/-- A review decides no candidate that is decided. -/
theorem ReviewStep.reviewStatus (h : ReviewStep d d') {i : Uuid} {c : FinancialFactCandidate}
    (hc : d.candidates i = some c) (hdecided : c.reviewStatus ≠ .pending) :
    d'.candidates i = some c := by
  have hother : ∀ j (cand cand' : FinancialFactCandidate), d.candidates j = some cand →
      cand.reviewStatus = .pending →
      d'.candidates = Function.update d.candidates j (some cand') → d'.candidates i = some c := by
    intro j cand cand' hj hpending hcands
    have hij : i ≠ j := by
      rintro rfl
      obtain rfl := Option.some.inj (hc.symm.trans hj)
      exact hdecided hpending
    rw [hcands, Function.update_of_ne hij, hc]
  cases h with
  | noted j cand cand' hj hpending _ _ hcands => exact hother j cand cand' hj hpending hcands
  | decided j cand cand' hj hpending _ _ _ hcands => exact hother j cand cand' hj hpending hcands

end Steps

section Runs

variable {cfg : ReviewConfig} {d₀ : FactDb} {s s' : ReviewSys}

/-- Reachable states keep the discipline. -/
theorem review_safe (h₀ : d₀.Unreviewed) (h : (reviewModel cfg).Reachable d₀ s) :
    (reviewDiscipline cfg).Safe s := (reviewDiscipline_sound cfg).safe h₀.inv h

/-- **One step of the reviews**: the contents stay or a review commits. -/
theorem review_step (h₀ : d₀.Unreviewed) (h : (reviewModel cfg).Reachable d₀ s)
    {a : Act FactAnswer ReviewCall Empty} (hs : (reviewModel cfg).step a s = some s') :
    s'.db = s.db ∨ ReviewStep s.db s'.db := by
  rcases (review_safe h₀ h).step_db hs with hdb | ⟨e, -, -⟩ | ⟨_, -, -, hg⟩
  · exact .inl hdb
  · exact e.elim
  · exact .inr hg

/-- What a relation of contents says of every review it says of runs. -/
theorem review_later {P : FactDb → Prop} (h₀ : d₀.Unreviewed)
    (h : (reviewModel cfg).Reachable d₀ s) (hl : (reviewModel cfg).Later s s')
    (hstep : ∀ {d d'}, ReviewStep d d' → P d → P d') (hs : P s.db) : P s'.db := by
  induction hl with
  | refl => exact hs
  | tail hl hstep' ih =>
    obtain ⟨a, -, ha⟩ := hstep'
    rcases review_step h₀ (h.later hl) ha with hsame | hreview
    · rw [hsame]
      exact ih
    · exact hstep hreview ih

end Runs

/-! ## Reviews that raise -/

/-- The statement neither makes nor changes a fact and leaves review statuses
alone. -/
def FactStmt.Harmless : FactStmt → Prop
  | .updateCandidate _ set => ∀ c, (set c).reviewStatus = c.reviewStatus
  | _ => False

/-- The same facts and the same review statuses. -/
structure SameReviews (d d' : FactDb) : Prop where
  facts : d'.facts = d.facts
  /-- the review statuses -/
  statuses : ∀ i, (d'.candidates i).map (·.reviewStatus) = (d.candidates i).map (·.reviewStatus)

theorem SameReviews.refl (d : FactDb) : SameReviews d d := ⟨rfl, fun _ => rfl⟩

/-- A harmless statement. -/
theorem FactStmt.Harmless.apply {a : FactStmt} (h : a.Harmless) (d : FactDb) :
    SameReviews d (a.apply d) := by
  cases a with
  | updateCandidate j set =>
    refine ⟨rfl, fun i => ?_⟩
    by_cases hi : i = j
    · simp only [FactStmt.apply, FactDb.updateCandidate, if_pos hi, Option.map_map]
      exact congrArg (fun f => (d.candidates i).map f) (funext h)
    · simp only [FactStmt.apply, FactDb.updateCandidate, if_neg hi]
  | insertFact f => exact h.elim
  | updateFact i set => exact h.elim
  | insertDecision dec => exact h.elim

/-- Harmless statements. -/
theorem sameReviews_view {l : List FactStmt} (h : ∀ a ∈ l, a.Harmless) (d : FactDb) :
    SameReviews d (factSchema.view l d) := by
  induction l generalizing d with
  | nil => exact .refl d
  | cons a l ih =>
    obtain ⟨hfacts, hstatuses⟩ := (h a List.mem_cons_self).apply d
    obtain ⟨hfacts', hstatuses'⟩ := ih (fun b hb => h b (List.mem_cons_of_mem _ hb)) (a.apply d)
    exact ⟨hfacts'.trans hfacts, fun i => (hstatuses' i).trans (hstatuses i)⟩

section Clean

open Prog

variable {cfg : ReviewConfig} {P : FactStmt → Prop} {l : List FactStmt}

theorem looks_lockCandidate (id : Uuid) (q : FinancialFactCandidate → Bool) :
    (lockCandidate id q).Looks := by
  intro found
  cases found
  · trivial
  · exact fun _ => trivial

theorem looks_lockFact (id : Uuid) (q : FinancialFact → Bool) : (lockFact id q).Looks := by
  intro found
  cases found
  · trivial
  · exact fun _ => trivial

theorem looks_now : FactProg.now.Looks := fun _ => trivial

theorem looks_uuid4 : uuid4.Looks := fun _ => trivial

theorem looks_ensure (c : Bool) (message : String) : (FactProg.ensure c message).Looks := by
  cases c <;> trivial

theorem looks_recordEvent : recordEvent.Looks := by
  intro i
  simp only
  split <;> trivial

theorem looks_metricDefinition (id : Uuid) : (metricDefinition id).Looks := by
  intro d
  simp only [Prog.bind]
  split <;> trivial

theorem looks_verifyEvidenceAndBasis (org : Uuid) (cand : FinancialFactCandidate)
    (target : Option String) : (verifyEvidenceAndBasis cfg org cand target).Looks := by
  intro d
  simp only [Prog.bind]
  split
  · trivial
  · split
    · trivial
    · split <;> trivial

theorem looks_lockActiveFact (key : FinancialFact.NaturalKey) : (lockActiveFact key).Looks := by
  intro d
  simp only [Prog.bind]
  split
  · trivial
  · exact looks_lockFact _ _
  · trivial

/-- A statement, and the rest with it pending. -/
theorem clean_execute {α : Type} {s : FactStmt} {f : Unit → FactProg α}
    (h : RaisesClean P (l ++ [s]) (f ())) : RaisesClean P l ((execute s).bind f) := ⟨h, trivial⟩

/-- A commit that ends a review. -/
theorem clean_commit : RaisesClean P l FactProg.commit := by
  refine ⟨.inl trivial, fun e => ?_⟩
  cases e <;> trivial

theorem clean_finishApproval (cand : FinancialFactCandidate) (basis : ReportingBasis)
    (dec : FactReviewDecision) : RaisesClean P l (finishApproval cand basis dec) := by
  rw [finishApproval]
  refine clean_execute (clean_execute ?_)
  exact RaisesClean.bind looks_recordEvent fun _ => clean_commit

/-- The only commit of `approve_candidate` that an exception follows is that of a
conflict, which is harmless. -/
theorem clean_approveCandidate (org c user : Uuid) (target notes : Option String) :
    RaisesClean FactStmt.Harmless [] (approveCandidate cfg org c user target notes) := by
  rw [approveCandidate]
  refine RaisesClean.bind (looks_lockCandidate _ _) fun cand => ?_
  split
  · trivial
  · refine RaisesClean.bind (looks_ensure _ _) fun _ => ?_
    split
    · trivial
    · trivial
    · refine RaisesClean.bind (looks_verifyEvidenceAndBasis _ _ _) fun basis => ?_
      refine RaisesClean.bind (looks_metricDefinition _) fun metric => ?_
      refine RaisesClean.bind (looks_lockActiveFact _) fun existing => ?_
      refine RaisesClean.bind looks_now fun nowUtc => ?_
      cases existing with
      | some f =>
        dsimp only
        split
        · exact clean_execute (clean_execute clean_commit)
        · refine clean_execute ⟨.inr ?_, fun e => ?_⟩
          · intro a ha
            obtain rfl := List.mem_singleton.mp ha
            exact fun _ => rfl
          · cases e <;> trivial
      | none =>
        refine RaisesClean.bind looks_uuid4 fun id => ?_
        refine RaisesClean.bind looks_now fun createdAt => ?_
        exact clean_execute (clean_finishApproval _ _ _)

/-- `approve_candidate_as_revision` commits last. -/
theorem clean_approveCandidateAsRevision (org c expected user : Uuid)
    (target notes : Option String) :
    RaisesClean P l (approveCandidateAsRevision cfg org c expected user target notes) := by
  rw [approveCandidateAsRevision]
  refine RaisesClean.bind (looks_lockCandidate _ _) fun cand => ?_
  split
  · trivial
  · refine RaisesClean.bind (looks_ensure _ _) fun _ => ?_
    split
    · refine RaisesClean.bind (looks_ensure _ _) fun _ => ?_
      refine RaisesClean.bind (looks_verifyEvidenceAndBasis _ _ _) fun basis => ?_
      refine RaisesClean.bind (looks_lockFact _ _) fun old => ?_
      split
      · trivial
      · refine RaisesClean.bind (looks_ensure _ _) fun _ => ?_
        refine RaisesClean.bind (looks_ensure _ _) fun _ => ?_
        refine RaisesClean.bind looks_now fun nowUtc => ?_
        refine RaisesClean.bind (looks_metricDefinition _) fun metric => ?_
        refine RaisesClean.bind looks_uuid4 fun id => ?_
        refine RaisesClean.bind looks_now fun createdAt => ?_
        exact clean_execute (clean_execute (clean_finishApproval _ _ _))
    · trivial

/-- `reject_candidate` commits last. -/
theorem clean_rejectCandidate (org c user : Uuid) (reasonCode : String)
    (notes : Option String) :
    RaisesClean P l (rejectCandidate org c user reasonCode notes) := by
  rw [rejectCandidate]
  refine RaisesClean.bind (looks_lockCandidate _ _) fun cand => ?_
  split
  · trivial
  · refine RaisesClean.bind (looks_ensure _ _) fun _ => ?_
    refine clean_execute (clean_execute ?_)
    exact RaisesClean.bind looks_recordEvent fun _ => clean_commit

/-- No review commits more than a conflict before it raises. -/
theorem clean_body (call : ReviewCall) :
    RaisesClean FactStmt.Harmless [] ((reviewModel cfg).body call) := by
  cases call with
  | approve org c user target notes => exact clean_approveCandidate org c user target notes
  | approveAsRevision org c expected user target notes =>
    exact clean_approveCandidateAsRevision org c expected user target notes
  | reject org c user reasonCode notes => exact clean_rejectCandidate org c user reasonCode notes

end Clean

/-! ## Every state of every run -/

/-- The first fact supersedes the second. -/
def FinancialFact.Supersedes (facts : List FinancialFact) (f g : FinancialFact) : Prop :=
  f ∈ facts ∧ g ∈ facts ∧ f.supersedesFactId = some g.id

/-- What holds in every state of every run of reviews. -/
structure ReviewsKept (cfg : ReviewConfig) (d₀ : FactDb) (s : ReviewSys) : Prop where
  /-- a natural key has one active fact at most -/
  active : ∀ f ∈ s.db.facts, ∀ g ∈ s.db.facts, f.validTo = none → g.validTo = none →
    f.naturalKey = g.naturalKey → f = g
  /-- a superseded fact is there, and ends when its successor begins -/
  adjacent : ∀ f ∈ s.db.facts, ∀ i, f.supersedesFactId = some i →
    ∃ g ∈ s.db.facts, g.id = i ∧ g.validTo = some f.validFrom
  /-- the id of a fact is its own -/
  ids : (s.db.facts.map (·.id)).Nodup
  /-- a fact has one successor at most -/
  simple : ∀ f g x, FinancialFact.Supersedes s.db.facts f x →
    FinancialFact.Supersedes s.db.facts g x → f = g
  /-- no fact is its own successor, over any number of steps -/
  acyclic : ∀ f, ¬ Relation.TransGen (FinancialFact.Supersedes s.db.facts) f f
  /-- the facts there are stay, with their cores, and others come after them -/
  cores : ∀ s', (reviewModel cfg).Later s s' → cores s.db.facts <+: cores s'.db.facts
  /-- a candidate has one decision if it is decided, and none before -/
  decisions : ∀ i c, s.db.candidates i = some c →
    s.db.decisions.countP (·.candidateId == i) = if c.reviewStatus = .pending then 0 else 1
  /-- a decided candidate stays as it is -/
  decided : ∀ s', (reviewModel cfg).Later s s' → ∀ i c, s.db.candidates i = some c →
    c.reviewStatus ≠ .pending → s'.db.candidates i = some c
  /-- no step of a review that raises in the end changes a fact or a review status -/
  raises : ∀ t t' p a pr x, (reviewModel cfg).Reachable d₀ t →
    (reviewModel cfg).step (.exec p a) t = some t' →
    (reviewModel cfg).LaterBy (Model.NotSpawned p) t' s → s.proc p = some pr →
    pr.prog = .raise x → SameReviews t.db t'.db

section Versions

variable {l : List FinancialFact}

theorem version_mem {f : FinancialFact} (h : f ∈ l) : f.version ∈ l.map (·.version) :=
  List.mem_map_of_mem h

/-- The identity of a version is that of its fact. -/
theorem nodup_ids (h : WellFormed (l.map (·.version))) : (l.map (·.id)).Nodup := by
  have := h.ids
  rwa [List.map_map] at this

/-- Facts that are the same version are the same fact. -/
theorem eq_of_version (h : WellFormed (l.map (·.version))) {f g : FinancialFact} (hf : f ∈ l)
    (hg : g ∈ l) (hv : f.version = g.version) : f = g :=
  List.inj_on_of_nodup_map (nodup_ids h) hf hg (congrArg Version.id hv)

theorem FinancialFact.Supersedes.version {f g : FinancialFact} (h : FinancialFact.Supersedes l f g) :
    Succeeds (l.map (·.version)) f.version g.version :=
  ⟨version_mem h.1, version_mem h.2.1, h.2.2⟩

end Versions

/-- **Reviews keep the facts**, in every state of every interleaving. Reviewers may approve, revise
and reject the same candidates at the same time, raise, or stop with their process. -/
theorem reviews_kept {cfg : ReviewConfig} {d₀ : FactDb} (h₀ : d₀.Unreviewed) {s : ReviewSys}
    (h : (reviewModel cfg).Reachable d₀ s) : ReviewsKept cfg d₀ s := by
  obtain ⟨hcands, hchains⟩ := (review_safe h₀ h).inv
  have hsup : ∀ {f x : FinancialFact}, FinancialFact.Supersedes s.db.facts f x →
      f.version.supersedes = some x.id := fun h => h.2.2
  refine
    { active := fun f hf g hg hcf hcg hkey => ?_
      adjacent := fun f hf i hi => ?_
      ids := nodup_ids hchains
      simple := fun f g x hf hg => ?_
      acyclic := fun f hcycle => ?_
      cores := fun s' hl => ?_
      decisions := fun i c hc => (hcands i c hc).decisions
      decided := fun s' hl i c hc hdecided => ?_
      raises := fun t t' p a pr x ht hstep hlater hp hx => ?_ }
  · exact eq_of_version hchains hf hg
      (hchains.alone _ (version_mem hf) _ (version_mem hg) hcf hcg hkey)
  · obtain ⟨v, hv, hid⟩ := hchains.exists_of_supersedes (version_mem hf) hi
    obtain ⟨g, hg, rfl⟩ := List.mem_map.mp hv
    refine ⟨g, hg, hid, hchains.adjacent _ hv _ (version_mem hf) ?_⟩
    rw [hid]
    exact hi
  · refine eq_of_version hchains hf.1 hg.1
      (hchains.simple _ (version_mem hf.1) _ (version_mem hg.1) ?_ ?_)
    · rw [hsup hf, hsup hg]
    · rw [hsup hf]
      rfl
  · exact hchains.acyclic f.version
      (Relation.TransGen.lift FinancialFact.version (fun _ _ h => h.version) f f hcycle)
  · exact review_later (P := fun d => cores s.db.facts <+: cores d.facts) h₀ h hl
      (fun hreview hpre => hpre.trans hreview.cores) List.prefix_rfl
  · exact review_later (P := fun d => d.candidates i = some c) h₀ h hl
      (fun hreview hc => hreview.reviewStatus hc hdecided) hc
  · rcases Model.raises_clean clean_body ht hstep hlater hp hx with hsame | ⟨l, hl, hview⟩
    · rw [hsame]
      exact .refl _
    · rw [hview]
      exact sameReviews_view hl _

/-- A candidate for a figure of one bank, with a value. -/
def reportedCandidate (id : Uuid) (value : ℚ) : FinancialFactCandidate where
  id := id
  organizationId := 1
  institutionId := 2
  reportingPeriodId := 3
  metricDefinitionId := some 4
  parsedDecimalValue := some value
  normalizedCurrency := "TRY"
  normalizedUnit := "CURRENCY"
  normalizedScale := "ACTUAL"
  normalizedValue := some value
  detectedReportingBasis := "SOLO"
  sourceDocumentId := 5
  sourceDocumentVersionId := 6
  validationStatus := .normalized
  reviewStatus := .pending

/-- Two documents report different values of one figure. -/
def twoReports : FactDb where
  candidates i := if i = 10 then some (reportedCandidate 10 500) else
    if i = 11 then some (reportedCandidate 11 700) else none
  facts := []
  decisions := []
  evidence :=
    [{ organizationId := 1, candidateId := 10, sourceDocumentVersionId := 6
       rowIndex := some 0, columnIndex := some 1 },
     { organizationId := 1, candidateId := 11, sourceDocumentVersionId := 6
       rowIndex := some 0, columnIndex := some 1 }]
  documentVersions := [⟨6, 1, 5, "text/csv", "text/csv"⟩]
  metricDefinitions := [⟨4, "TOTAL_ASSETS"⟩]

theorem twoReports_unreviewed : twoReports.Unreviewed where
  facts := rfl
  decisions := rfl
  candidates i c hc := by
    simp only [twoReports] at hc
    split at hc
    · obtain rfl := Option.some.inj hc
      exact ⟨Eq.symm ‹_›, rfl⟩
    · split at hc
      · obtain rfl := Option.some.inj hc
        exact ⟨Eq.symm ‹_›, rfl⟩
      · cases hc

/-- One report is approved, the approval of the other meets the conflict, and the
other is approved as a revision: of two facts one is active. -/
theorem reviews_kept_twoReports : ∃ (cfg : ReviewConfig) (s : ReviewSys),
    s.db.facts.map (·.validTo) = [some 102, none] ∧ ReviewsKept cfg twoReports s := by
  let cfg : ReviewConfig := ⟨id, id, fun _ => ""⟩
  have hrun : (((reviewModel cfg).run
      (Model.serve 0 (.approve 1 10 9 none none) 14 { uuid := 20, now := 100 } ++
        Model.serve 1 (.approve 1 11 9 none none) 11 { uuid := 21, now := 101 } ++
        Model.serve 2 (.approveAsRevision 1 11 20 9 none none) 16 { uuid := 21, now := 102 })
      (Model.idle twoReports)).map fun s => s.db.facts.map (·.validTo)) =
        some [some 102, none] := by
    decide +kernel
  obtain ⟨s, hs, hfacts⟩ := Option.map_eq_some_iff.mp hrun
  have h : (reviewModel cfg).Reachable twoReports s :=
    Model.ReachableBy.later .start (Model.LaterBy.of_runBy (fun _ _ _ => trivial) hs)
  exact ⟨cfg, s, hfacts, reviews_kept twoReports_unreviewed h⟩

end FinanceIntelligence
