import FinanceIntelligence.AuthContext
import FinanceIntelligence.TenantContext

/-!
# Requests and the rows they are told

A request runs its statements in the transaction of its context (`get_db_session`, db/session.py):
the organization of the context is the setting by which the database shows rows. So what a request
is told rests on who sends it.

* `request_confined` — outside of development a request is told rows **only of organizations of
  which its user is an active member**.
-/

namespace FinanceIntelligence

variable {D : DoubleText} {K C : Type} [DecidableEq K] {V : AuthService}
  {db : ℕ → Option AuthTables} {drawn : ℕ → List Char} {headers : ℕ → AuthHeaders}
  {rows : List (OwnedRow K Uuid C)} {l : List (ClientCall K Uuid C)} {s' : SecuredDb K Uuid C}

/-- Every request that sends a statement has a context, whose organization it sets. -/
def RunsInContext (D : DoubleText) (V : AuthService) (db : ℕ → Option AuthTables)
    (drawn : ℕ → List Char) (headers : ℕ → AuthHeaders) (organization : ℕ → Uuid)
    (l : List (ClientCall K Uuid C)) : Prop :=
  ∀ a ∈ l, ∃ ctx, V.getExecutionContext (db a.client) (drawn a.client) (headers a.client) =
    (.ok ctx : Except (Raised D) _) ∧ organization a.client = ctx.activeOrganizationId

/-- **From the token to the row.** Outside of development, whatever requests run at the same time,
and in whatever order their statements reach the database: every row that a request is told belongs
to an organization of which the user that Firebase vouches for is an active member, by the tables
that were read for this request. -/
theorem request_confined {organization : ℕ → Uuid}
    (hdev : V.settings.isDevelopment V.text = false) (hkeys : ∀ r, ∀ A ∈ db r, A.UniqueKeys)
    (hids : RowChange.UniqueIds rows) (hl : RequestCalls organization l)
    (hcontext : RunsInContext D V db drawn headers organization l)
    (hrun : runSteps SecuredDb.step { rows } l = some s') (r : ℕ)
    (told : List (OwnedRow K Uuid C)) (htold : .rows told ∈ s'.answers r)
    (row : OwnedRow K Uuid C) (hrow : row ∈ told) :
    ∃ token identity A user membership,
      V.requested (headers r) = (.ok (token, row.owner) : Except (Raised D) _) ∧
      V.firebaseIdentity token = (.ok identity : Except (Raised D) _) ∧ A ∈ db r ∧
      A.ActiveMember V.sqlText identity.externalSubject row.owner user membership := by
  have howner : row.owner = organization r :=
    SecuredDb.AnswersOwn.run (fun r told h => absurd h List.not_mem_nil) (.start hids) hl.scoped
      hrun r told htold row hrow
  -- a request that sends nothing is told nothing
  have hsends : ∃ a ∈ l, a.client = r := by
    by_contra hnone
    have hquiet := SecuredDb.run_of_ne (q := r) (fun a ha heq => hnone ⟨a, ha, heq.symm⟩) hrun
    rw [hquiet.2] at htold
    cases htold
  obtain ⟨a, ha, rfl⟩ := hsends
  obtain ⟨ctx, hok, horg⟩ := hcontext a ha
  obtain ⟨token, identity, A, user, membership, hrequested, hidentity, hA, hmember, -⟩ :=
    AuthService.getExecutionContext_activeMember hdev (hkeys a.client) hok
  rw [howner, horg]
  exact ⟨token, identity, A, user, membership, hrequested, hidentity, hA, hmember⟩

/-- A query of the analyst. -/
def analystCalls : List (ClientCall ℕ Uuid Unit) :=
  [⟨0, 0, .setConfig (some 5) true⟩, ⟨0, 0, .select fun _ => true⟩]

theorem analystCalls_requests : RequestCalls (fun _ => 5) analystCalls := by
  intro r
  rcases r with _ | r
  · exact ⟨[.select fun _ => true], by simp [HandlerCall], _, rfl⟩
  · exact ⟨[], by simp, List.nil_prefix⟩

theorem request_confined_analyst : ∃ s' : SecuredDb ℕ Uuid Unit,
    runSteps SecuredDb.step ({ rows := [⟨3, 5, ()⟩, ⟨4, 9, ()⟩] } : SecuredDb ℕ Uuid Unit)
        analystCalls = some s' ∧
      .rows [⟨3, 5, ()⟩] ∈ s'.answers 0 ∧ ∃ token identity A user membership,
        AuthService.production.requested AuthService.analystHeaders =
          (.ok (token, 5) : Except (Raised .integral) _) ∧
        AuthService.production.firebaseIdentity token =
          (.ok identity : Except (Raised .integral) _) ∧
        A ∈ some AuthService.oneAnalyst ∧
        A.ActiveMember .ascii identity.externalSubject 5 user membership := by
  obtain ⟨s', hrun, hanswers⟩ : ∃ s' : SecuredDb ℕ Uuid Unit,
      runSteps SecuredDb.step ({ rows := [⟨3, 5, ()⟩, ⟨4, 9, ()⟩] } : SecuredDb ℕ Uuid Unit)
        analystCalls = some s' ∧ s'.answers 0 = [.done, .rows [⟨3, 5, ()⟩]] := ⟨_, rfl, rfl⟩
  have hmem : .rows [⟨3, 5, ()⟩] ∈ s'.answers 0 := by
    rw [hanswers]
    exact List.mem_cons_of_mem _ List.mem_cons_self
  obtain ⟨ctx, hctx, horg⟩ := AuthService.getExecutionContext_analyst
  have hcontext : RunsInContext .integral AuthService.production
      (fun _ => some AuthService.oneAnalyst) (fun _ => []) (fun _ => AuthService.analystHeaders)
      (fun _ => 5) analystCalls := fun a _ => ⟨ctx, hctx, horg.symm⟩
  refine ⟨s', hrun, hmem, request_confined (by decide) (fun r A hA => ?_)
    (by simp [RowChange.UniqueIds]) analystCalls_requests hcontext hrun 0 _ hmem ⟨3, 5, ()⟩
    List.mem_cons_self⟩
  obtain rfl := Option.some.inj hA
  exact AuthService.oneAnalyst_uniqueKeys

end FinanceIntelligence
