import FinanceIntelligence.RequestPlan
import FinanceIntelligence.RowSecurity

/-!
# Tenants under row-level security

A request runs its handler under `tenant_transaction_context` (db/tenant_context.py), inside
`get_db_session` (db/session.py): the organization of the request is the setting
`app.current_organization_id` of the transaction, and the policies of the tables compare it with
`organization_id`. Requests share the connections of one pool.

* `tenants_isolated` — **each tenant alone**: whatever the order of the calls of all requests, the
  rows of an organization and what its requests are told are those of a database of its own.
* `tenant_confined` — nobody is told a row of another organization, and a handler cannot see or
  write anything once it has committed.
-/

namespace FinanceIntelligence

open SecuredDb

variable {K C : Type}

/-! ## Requests -/

/-- The calls of `get_db_session` and `tenant_transaction_context` around those of a handler: the
setting is made, the handler runs, `session.close()` rolls back, the setting is blanked in another
transaction, which is rolled back in turn. -/
def tenantTransactionContext (organization : Uuid) (handler : List (SqlCall K Uuid C)) :
    List (SqlCall K Uuid C) :=
  .setConfig (some organization) true :: handler ++ [.rollback, .setConfig none true, .rollback]

/-- What a handler sends: statements, the ends of its transactions, and the setting of its own
organization once more. -/
def HandlerCall (organization : Uuid) : SqlCall K Uuid C → Prop
  | .setConfig value isLocal => value = some organization ∧ isLocal = true
  | _ => True

/-- Calls of requests, each of its own organization, in any order; a request may be under way. -/
def RequestCalls (organization : ℕ → Uuid) (l : List (ClientCall K Uuid C)) : Prop :=
  ∀ r, ∃ handler, (∀ call ∈ handler, HandlerCall (organization r) call) ∧
    callsOf r l <+: tenantTransactionContext (organization r) handler

variable {organization : ℕ → Uuid} {l : List (ClientCall K Uuid C)}

/-- **Requests are scoped.** -/
theorem RequestCalls.scoped (h : RequestCalls organization l) :
    ∀ a ∈ l, Scoped organization a := by
  intro a ha
  obtain ⟨handler, hhandler, hcalls⟩ := h a.client
  have hmem : a.call ∈ tenantTransactionContext (organization a.client) handler :=
    hcalls.subset (mem_callsOf ha)
  unfold Scoped
  cases hcall : a.call with
  | setConfig value isLocal =>
    change isLocal = true ∧ ∀ o, value = some o → o = organization a.client
    rw [hcall] at hmem
    simp only [tenantTransactionContext, List.mem_append, List.mem_cons, SqlCall.setConfig.injEq,
      List.not_mem_nil, or_false, reduceCtorEq, false_or] at hmem
    rcases hmem with (⟨rfl, rfl⟩ | hmem) | ⟨rfl, rfl⟩
    · exact ⟨rfl, fun o ho => (Option.some.inj ho).symm⟩
    · obtain ⟨rfl, rfl⟩ := hhandler _ hmem
      exact ⟨rfl, fun o ho => (Option.some.inj ho).symm⟩
    · exact ⟨rfl, fun o ho => by cases ho⟩
  | _ => trivial

/-! ## Tenants -/

variable [DecidableEq K] {s s' : SecuredDb K Uuid C} {rows : List (OwnedRow K Uuid C)}

/-- **Each tenant alone.** In whatever order the calls of the requests of all organizations reach
the database, the rows of an organization and what its requests are told are what they are when
only these requests run, on a database with the rows of this organization only. -/
theorem tenants_isolated (hids : RowChange.UniqueIds rows) (hl : RequestCalls organization l)
    (hrun : runSteps SecuredDb.step { rows } l = some s') (A : Uuid) :
    ∃ own, runSteps SecuredDb.step { rows := RowChange.ofOwner A rows }
        (l.filter fun a => organization a.client = A) = some own ∧
      own.rows = RowChange.ofOwner A s'.rows ∧
      ∀ r, organization r = A → own.answers r = s'.answers r := by
  refine ⟨view organization A s', ?_, rfl, fun r hr => if_pos hr⟩
  have hstart : view organization A { rows := rows } =
      ({ rows := RowChange.ofOwner A rows } : SecuredDb K Uuid C) := by
    refine ext_of rfl rfl rfl rfl (funext fun r => ?_) (funext fun r => ?_)
    · exact ite_self none
    · exact ite_self []
  rw [← hstart]
  exact view_run (Inv.start hids) hl.scoped hrun A

/-- The organizations of two requests. -/
def twoOrganizations (r : ℕ) : Uuid := if r = 0 then 1 else 2

/-- Two requests in turns: the second inserts a row and commits it while the first reads. -/
def interleavedCalls : List (ClientCall ℕ Uuid Unit) :=
  [⟨0, 0, .setConfig (some 1) true⟩, ⟨1, 1, .setConfig (some 2) true⟩,
    ⟨0, 0, .select fun _ => true⟩,
    ⟨1, 1, .insert ⟨7, 2, ()⟩⟩, ⟨1, 1, .commit⟩, ⟨0, 0, .select fun _ => true⟩,
    ⟨1, 1, .select fun _ => true⟩, ⟨0, 0, .rollback⟩, ⟨1, 1, .rollback⟩]

theorem interleavedCalls_requests : RequestCalls twoOrganizations interleavedCalls := by
  intro r
  rcases r with _ | _ | r
  · exact ⟨[.select fun _ => true, .select fun _ => true], by simp [HandlerCall],
      _, rfl⟩
  · exact ⟨[.insert ⟨7, 2, ()⟩, .commit, .select fun _ => true], by simp [HandlerCall],
      _, rfl⟩
  · refine ⟨[], by simp, ?_⟩
    have hnil : callsOf (r + 2) interleavedCalls = [] := by simp [callsOf, interleavedCalls]
    rw [hnil]
    exact List.nil_prefix

/-- One row of each of two organizations. -/
def twoRows : List (OwnedRow ℕ Uuid Unit) := [⟨3, 1, ()⟩, ⟨4, 2, ()⟩]

theorem twoRows_uniqueIds : RowChange.UniqueIds twoRows := by
  simp [RowChange.UniqueIds, twoRows]

theorem interleavedCalls_run : ∃ s' : SecuredDb ℕ Uuid Unit,
    runSteps SecuredDb.step { rows := twoRows } interleavedCalls = some s' := by
  have hsome : (runSteps SecuredDb.step ({ rows := twoRows } : SecuredDb ℕ Uuid Unit)
      interleavedCalls).isSome = true := by decide
  exact Option.isSome_iff_exists.mp hsome

theorem tenants_isolated_two : ∃ s' : SecuredDb ℕ Uuid Unit,
    runSteps SecuredDb.step { rows := twoRows } interleavedCalls = some s' ∧
      ∃ own, runSteps SecuredDb.step { rows := RowChange.ofOwner 1 twoRows }
          (interleavedCalls.filter fun a => twoOrganizations a.client = 1) = some own ∧
        own.rows = RowChange.ofOwner 1 s'.rows ∧
        ∀ r, twoOrganizations r = 1 → own.answers r = s'.answers r := by
  obtain ⟨s', hrun⟩ := interleavedCalls_run
  exact ⟨s', hrun, tenants_isolated twoRows_uniqueIds interleavedCalls_requests hrun 1⟩

/-- **Tenants are confined.** Every row that a request is told belongs to its organization. Once a
handler has committed or rolled back, its queries have no rows and its insertions raise, until it
sets its organization again. -/
theorem tenant_confined (hids : RowChange.UniqueIds rows) (hl : RequestCalls organization l)
    (hrun : runSteps SecuredDb.step { rows } l = some s') :
    (∀ r told, .rows told ∈ s'.answers r → ∀ row ∈ told, row.owner = organization r) ∧
      ∀ l₁ l₂ r c call, l = l₁ ++ ⟨r, c, call⟩ :: l₂ → call = .commit ∨ call = .rollback →
        (∀ value, .setConfig (some value) true ∉ callsOf r l₂) →
        ∃ before later, s'.answers r = before ++ later ∧
          List.Forall₂ ToldNothing (callsOf r l₂) later := by
  have hinv : Inv organization ({ rows } : SecuredDb K Uuid C) := .start hids
  refine ⟨AnswersOwn.run (fun r told htold => absurd htold List.not_mem_nil) hinv hl.scoped hrun,
    fun l₁ l₂ r c call heq hend hunset => ?_⟩
  obtain rfl := heq
  rw [runSteps_append] at hrun
  obtain ⟨s₁, h₁, hrun⟩ := Option.bind_eq_some_iff.mp hrun
  obtain ⟨s₂, h₂, hrun⟩ := runSteps_cons hrun
  have hscoped := hl.scoped
  have hinv₂ : Inv organization s₂ :=
    (hinv.run (fun a ha => hscoped a (List.mem_append_left _ ha)) h₁).step
      (hscoped _ (List.mem_append_right _ List.mem_cons_self)) h₂
  have hscoped₂ : ∀ a ∈ l₂, Scoped organization a := fun a ha =>
    hscoped a (List.mem_append_right _ (List.mem_cons_of_mem _ ha))
  have hcalls : ∀ call ∈ callsOf r l₂, ∀ value isLocal, call = .setConfig value isLocal →
      value = none := by
    intro call hcall value isLocal heq
    obtain rfl := heq
    obtain ⟨a, ha, hacall⟩ := List.mem_map.mp hcall
    have hset := hscoped₂ a (List.mem_filter.mp ha).1
    rw [Scoped, hacall] at hset
    obtain ⟨rfl, -⟩ := hset
    cases value with
    | none => rfl
    | some value => exact absurd hcall (hunset value)
  obtain ⟨told, htold, hnothing⟩ :=
    (Unbound.of_none (txns_of_end hend h₂)).run hinv₂ hscoped₂ hcalls hrun
  exact ⟨s₂.answers r, told, htold, hnothing⟩

theorem tenant_confined_two : ∃ s' : SecuredDb ℕ Uuid Unit,
    runSteps SecuredDb.step { rows := twoRows } interleavedCalls = some s' ∧
      ∀ r told, .rows told ∈ s'.answers r → ∀ row ∈ told, row.owner = twoOrganizations r := by
  obtain ⟨s', hrun⟩ := interleavedCalls_run
  exact ⟨s', hrun, (tenant_confined twoRows_uniqueIds interleavedCalls_requests hrun).1⟩

end FinanceIntelligence
