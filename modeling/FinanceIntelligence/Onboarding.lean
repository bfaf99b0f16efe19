import FinanceIntelligence.AuthContext
import FinanceIntelligence.StepRuns
import Mathlib.Logic.Function.Basic

/-!
# Onboarding

`POST /organizations/bootstrap` (api/v1/organizations.py) gives every user who asks an organization
of his own, by the function `bootstrap_self_organization`
(alembic/versions/032_bootstrap_self_onboarding.py): it looks for an active membership, and else
creates an organization, the user, his membership and the role of an analyst. A call looks, and
creates, in one transaction; calls run at the same time, and see what others have committed.

* `onboarding_private` — no call gives anybody access to an organization but **to its own user** to
  the one that it creates.
* `onboarded_admitted` — who is answered with an organization is admitted there, **as far as** he
  and the organization are active.
* `onboarded_once` — a user gets a second organization **only in a race**.
-/

namespace FinanceIntelligence

/-! ## The function -/

/-- What `bootstrap_self_organization` is called with. -/
structure BootstrapCall where
  /-- `p_subject` -/
  subject : List Char
  /-- `p_provider` -/
  provider : List Char
  /-- `p_display_name` -/
  displayName : List Char

/-- The call for an identity. -/
def BootstrapCall.ofIdentity (identity : AuthenticatedIdentity) : BootstrapCall where
  subject := identity.externalSubject
  provider := identity.identityProvider
  displayName := if identity.displayName = [] then "Kullanıcı".toList else identity.displayName

/-- The ids that a call draws. -/
structure DrawnIds where
  organization : Uuid
  user : Uuid
  membership : Uuid
  /-- of the row of `membership_roles` -/
  membershipRole : Uuid
  slug : Uuid

/-- `'org-' || replace(gen_random_uuid()::text, '-', '')` -/
def DrawnIds.slugText (ids : DrawnIds) : List Char :=
  "org-".toList ++ (uuidText ids.slug).toList.filter (· ≠ '-')

namespace AuthTables

/-- The active memberships of a subject. -/
def activeMemberships (A : AuthTables) (subject : List Char) : List MembershipRow :=
  (A.users.filter fun u => u.externalSubject = subject).flatMap fun u =>
    A.memberships.filter fun m => m.userId = u.id && m.status = "ACTIVE".toList

/-- The first query: an organization of which the subject is an active member. It has `LIMIT 1` and
no order, so that any of the rows may come, the one with the number `row` say. -/
def memberOrganization (A : AuthTables) (subject : List Char) (row : ℕ) : Option Uuid :=
  let rows := A.activeMemberships subject
  rows[row % rows.length]?.map (·.organizationId)

/-- The ids are in no table. -/
structure Fresh (A : AuthTables) (ids : DrawnIds) : Prop where
  /-- `organizations` -/
  organization : ∀ o ∈ A.organizations, o.id ≠ ids.organization
  /-- `organizations.slug` -/
  slug : ∀ o ∈ A.organizations, o.slug ≠ ids.slugText
  /-- `users` -/
  user : ∀ u ∈ A.users, u.id ≠ ids.user
  /-- `memberships` -/
  membership : ∀ m ∈ A.memberships, m.id ≠ ids.membership
  /-- `membership_roles` -/
  membershipRole : ∀ mr ∈ A.membershipRoles, mr.id ≠ ids.membershipRole

instance (A : AuthTables) (ids : DrawnIds) : Decidable (A.Fresh ids) :=
  decidable_of_iff ((∀ o ∈ A.organizations, o.id ≠ ids.organization) ∧
      (∀ o ∈ A.organizations, o.slug ≠ ids.slugText) ∧ (∀ u ∈ A.users, u.id ≠ ids.user) ∧
      (∀ m ∈ A.memberships, m.id ≠ ids.membership) ∧
      ∀ mr ∈ A.membershipRoles, mr.id ≠ ids.membershipRole)
    ⟨fun h => ⟨h.1, h.2.1, h.2.2.1, h.2.2.2.1, h.2.2.2.2⟩,
      fun h => ⟨h.organization, h.slug, h.user, h.membership, h.membershipRole⟩⟩

/-- `INSERT INTO users … ON CONFLICT (external_subject) DO NOTHING` -/
def insertUser (A : AuthTables) (call : BootstrapCall) (ids : DrawnIds) : List UserRow :=
  if A.users.any fun u => u.externalSubject = call.subject then A.users
  else A.users ++ [{
    id := ids.user
    externalSubject := call.subject
    identityProvider := call.provider
    displayName := call.displayName.take 255
    status := "ACTIVE".toList }]

/-- `SELECT u.id INTO v_user_id` -/
def userIdOf (users : List UserRow) (subject : List Char) : Option Uuid :=
  (users.find? fun u => u.externalSubject = subject).map (·.id)

/-- The insertions. -/
def provision (A : AuthTables) (call : BootstrapCall) (ids : DrawnIds) : AuthTables :=
  let users := A.insertUser call ids
  { A with
    users := users
    organizations := A.organizations ++ [{
      id := ids.organization
      name := (call.displayName ++ " Organizasyonu".toList).take 255
      slug := ids.slugText
      status := "ACTIVE".toList }]
    memberships := A.memberships ++ ((userIdOf users call.subject).map fun userId => {
      id := ids.membership
      userId := userId
      organizationId := ids.organization
      status := "ACTIVE".toList : MembershipRow }).toList
    membershipRoles := A.membershipRoles ++ ((A.roles.find? fun r =>
        r.2 = "ANALYST".toList).map fun r => {
      id := ids.membershipRole
      organizationId := ids.organization
      membershipId := ids.membership
      roleId := r.1 : MembershipRoleRow }).toList }

end AuthTables

namespace AuthTables

/-! ## What a call stores -/

/-- **What a call stores**, for the user `u`. -/
structure Provisioned (A A' : AuthTables) (call : BootstrapCall) (ids : DrawnIds) (u : UserRow) :
    Prop where
  /-- the user is there -/
  mem_users : u ∈ A'.users
  /-- he has the subject -/
  subject_eq : u.externalSubject = call.subject
  /-- he was there, or is new and active -/
  users : A'.users = A.users ∨ A'.users = A.users ++ [u] ∧ u.id = ids.user ∧
    u.status = "ACTIVE".toList ∧ ∀ x ∈ A.users, x.externalSubject ≠ call.subject
  organizations : ∃ o, A'.organizations = A.organizations ++ [o] ∧ o.id = ids.organization ∧
    o.status = "ACTIVE".toList
  memberships : A'.memberships =
    A.memberships ++ [⟨ids.membership, u.id, ids.organization, "ACTIVE".toList⟩]
  membershipRoles : A'.membershipRoles = A.membershipRoles ++
    ((A.roles.find? fun r => r.2 = "ANALYST".toList).map fun r =>
      ⟨ids.membershipRole, ids.organization, ids.membership, r.1⟩).toList
  /-- nothing else -/
  roles : A'.roles = A.roles
  /-- nothing else -/
  rolePermissions : A'.rolePermissions = A.rolePermissions
  /-- nothing else -/
  permissions : A'.permissions = A.permissions

theorem exists_provisioned (A : AuthTables) (call : BootstrapCall) (ids : DrawnIds) :
    ∃ u, Provisioned A (A.provision call ids) call ids u := by
  have hstored : ∀ u ∈ A.insertUser call ids, u.externalSubject = call.subject →
      userIdOf (A.insertUser call ids) call.subject = some u.id →
      (A.insertUser call ids = A.users ∨ A.insertUser call ids = A.users ++ [u] ∧ u.id = ids.user ∧
        u.status = "ACTIVE".toList ∧ ∀ x ∈ A.users, x.externalSubject ≠ call.subject) →
      Provisioned A (A.provision call ids) call ids u := fun u hu hsubject hid husers => by
    refine ⟨hu, hsubject, husers, ⟨_, rfl, rfl, rfl⟩, ?_, rfl, rfl, rfl, rfl⟩
    simp only [provision, hid]
    rfl
  by_cases hany : (A.users.any fun u => u.externalSubject = call.subject) = true
  · have husers : A.insertUser call ids = A.users := if_pos hany
    obtain ⟨u, hu⟩ : ∃ u, A.users.find? (fun u => u.externalSubject = call.subject) = some u :=
      Option.isSome_iff_exists.mp (List.find?_isSome.mpr (List.any_eq_true.mp hany))
    have hsubject : u.externalSubject = call.subject := by simpa using List.find?_some hu
    refine ⟨u, hstored u ?_ hsubject ?_ (.inl husers)⟩
    · rw [husers]
      exact List.mem_of_find?_eq_some hu
    · rw [husers, userIdOf, hu]
      rfl
  · have hnot : ∀ x ∈ A.users, x.externalSubject ≠ call.subject := fun x hx heq =>
      hany (List.any_eq_true.mpr ⟨x, hx, decide_eq_true heq⟩)
    have husers : A.insertUser call ids = A.users ++ [⟨ids.user, call.subject, call.provider,
        call.displayName.take 255, "ACTIVE".toList⟩] := if_neg hany
    refine ⟨_, hstored _ ?_ rfl ?_ (.inr ⟨husers, rfl, rfl, hnot⟩)⟩
    · exact husers ▸ List.mem_concat_self
    · have hnone : A.users.find? (fun u => u.externalSubject = call.subject) = none :=
        List.find?_eq_none.mpr fun x hx => by simpa using hnot x hx
      rw [husers, userIdOf, List.find?_append, hnone]
      simp

/-- The keys of the tables, and the rows that they refer to. -/
structure Sound (A : AuthTables) : Prop where
  /-- the keys that are looked up -/
  keys : A.UniqueKeys
  /-- `users.id` -/
  userIds : ∀ u ∈ A.users, ∀ u' ∈ A.users, u.id = u'.id → u = u'
  /-- `memberships.id` -/
  membershipIds : ∀ m ∈ A.memberships, ∀ m' ∈ A.memberships, m.id = m'.id → m = m'
  /-- `memberships.user_id` -/
  user : ∀ m ∈ A.memberships, ∃ u ∈ A.users, u.id = m.userId
  /-- `memberships.organization_id` -/
  organization : ∀ m ∈ A.memberships, ∃ o ∈ A.organizations, o.id = m.organizationId
  /-- `fk_membership_roles_membership_org` -/
  membership : ∀ mr ∈ A.membershipRoles, ∃ m ∈ A.memberships, m.id = mr.membershipId ∧
    m.organizationId = mr.organizationId

/-- A row with a new key keeps the keys apart. -/
theorem eq_of_key_eq {α β : Type} (key : α → β) {l : List α} {new : α}
    (hl : ∀ x ∈ l, ∀ y ∈ l, key x = key y → x = y) (hnew : ∀ x ∈ l, key x ≠ key new) {x y : α}
    (hx : x ∈ l ++ [new]) (hy : y ∈ l ++ [new]) (heq : key x = key y) : x = y := by
  rw [List.mem_append, List.mem_singleton] at hx hy
  rcases hx with hx | rfl <;> rcases hy with hy | rfl
  · exact hl x hx y hy heq
  · exact absurd heq (hnew x hx)
  · exact absurd heq.symm (hnew y hy)
  · rfl

namespace Provisioned

variable {A A' : AuthTables} {call : BootstrapCall} {ids : DrawnIds} {u : UserRow}

theorem mem_users_iff (h : Provisioned A A' call ids u) {x : UserRow} :
    x ∈ A'.users ↔ x ∈ A.users ∨ x = u := by
  rcases h.users with heq | ⟨heq, -⟩
  · have hu := h.mem_users
    rw [heq] at hu ⊢
    exact ⟨.inl, fun hx => hx.elim id fun hx => hx ▸ hu⟩
  · rw [heq, List.mem_append, List.mem_singleton]

theorem mem_memberships_iff (h : Provisioned A A' call ids u) {m : MembershipRow} :
    m ∈ A'.memberships ↔ m ∈ A.memberships ∨
      m = ⟨ids.membership, u.id, ids.organization, "ACTIVE".toList⟩ := by
  rw [h.memberships, List.mem_append, List.mem_singleton]

/-- Users stay apart, by their subjects and by their ids. -/
theorem user_eq (h : Provisioned A A' call ids u) (hA : A.Sound) (hfresh : A.Fresh ids)
    {x y : UserRow} (hx : x ∈ A'.users) (hy : y ∈ A'.users)
    (heq : x.externalSubject = y.externalSubject ∨ x.id = y.id) : x = y := by
  rcases h.users with husers | ⟨husers, hid, -, hnot⟩
  · rw [husers] at hx hy
    exact heq.elim (hA.keys.subject x hx y hy) (hA.userIds x hx y hy)
  · rw [husers] at hx hy
    rcases heq with heq | heq
    · exact eq_of_key_eq _ hA.keys.subject
        (fun z hz heq => hnot z hz (heq.trans h.subject_eq)) hx hy heq
    · exact eq_of_key_eq _ hA.userIds (fun z hz heq => hfresh.user z hz (heq.trans hid)) hx hy heq

/-- Nobody has been a member of the organization. -/
theorem organizationId_ne (hA : A.Sound) (hfresh : A.Fresh ids) {m : MembershipRow}
    (hm : m ∈ A.memberships) : m.organizationId ≠ ids.organization := by
  intro heq
  obtain ⟨o, ho, hid⟩ := hA.organization m hm
  exact hfresh.organization o ho (hid.trans heq)

/-- **A call keeps the keys.** -/
theorem sound (h : Provisioned A A' call ids u) (hA : A.Sound) (hfresh : A.Fresh ids) :
    A'.Sound := by
  obtain ⟨o, horgs, hoid, -⟩ := h.organizations
  refine ⟨⟨fun x hx y hy heq => h.user_eq hA hfresh hx hy (.inl heq), fun x hx y hy heq => ?_,
    fun x hx y hy huser horg => ?_⟩, fun x hx y hy heq => h.user_eq hA hfresh hx hy (.inr heq),
    fun x hx y hy heq => ?_, fun m hm => ?_, fun m hm => ?_, fun mr hmr => ?_⟩
  · rw [horgs] at hx hy
    exact eq_of_key_eq _ hA.keys.organization
      (fun z hz heq => hfresh.organization z hz (heq.trans hoid)) hx hy heq
  · rw [h.memberships] at hx hy
    exact eq_of_key_eq (fun m : MembershipRow => (m.userId, m.organizationId))
      (fun z hz z' hz' heq => hA.keys.membership z hz z' hz' (congrArg Prod.fst heq)
        (congrArg Prod.snd heq))
      (fun z hz heq => organizationId_ne hA hfresh hz (congrArg Prod.snd heq)) hx hy
      (Prod.ext huser horg)
  · rw [h.memberships] at hx hy
    exact eq_of_key_eq _ hA.membershipIds hfresh.membership hx hy heq
  · rcases h.mem_memberships_iff.mp hm with hm | rfl
    · obtain ⟨x, hx, hid⟩ := hA.user m hm
      exact ⟨x, h.mem_users_iff.mpr (.inl hx), hid⟩
    · exact ⟨u, h.mem_users, rfl⟩
  · rcases h.mem_memberships_iff.mp hm with hm | rfl
    · obtain ⟨x, hx, hid⟩ := hA.organization m hm
      exact ⟨x, horgs ▸ List.mem_append_left _ hx, hid⟩
    · exact ⟨o, horgs ▸ List.mem_concat_self, hoid⟩
  · rw [h.membershipRoles, List.mem_append, Option.mem_toList, Option.map_eq_some_iff] at hmr
    rcases hmr with hmr | ⟨r, -, rfl⟩
    · obtain ⟨m, hm, hid⟩ := hA.membership mr hmr
      exact ⟨m, h.memberships ▸ List.mem_append_left _ hm, hid⟩
    · exact ⟨_, h.memberships ▸ List.mem_concat_self, rfl, rfl⟩

/-- **Who becomes a member**: the user of the call, of the organization that it creates. -/
theorem activeMember_iff (h : Provisioned A A' call ids u) (hA : A.Sound) (hfresh : A.Fresh ids)
    {T : TextCase} {subject : List Char} {org : Uuid} {user : UserRow} {m : MembershipRow} :
    A'.ActiveMember T subject org user m ↔ A.ActiveMember T subject org user m ∨
      user = u ∧ m = ⟨ids.membership, u.id, ids.organization, "ACTIVE".toList⟩ ∧
        subject = call.subject ∧ org = ids.organization ∧ sqlTrim subject ≠ [] ∧
        isActive T u.status = true ∧ isActive T "ACTIVE".toList = true := by
  obtain ⟨o, horgs, hoid, hostatus⟩ := h.organizations
  constructor
  · intro hm
    rcases h.mem_memberships_iff.mp hm.mem_memberships with hmem | rfl
    · left
      obtain ⟨x, hx, hxid⟩ := hA.user m hmem
      obtain ⟨p, hp, hpid, hpactive⟩ := hm.organization_active
      refine ⟨hm.subject_ne, ?_, hm.subject_eq, hm.user_active, hmem, hm.user_eq,
        hm.organization_eq, hm.membership_active, p, ?_, hpid, hpactive⟩
      · rw [← h.user_eq hA hfresh (h.mem_users_iff.mpr (.inl hx)) hm.mem_users
          (.inr (hxid.trans hm.user_eq))]
        exact hx
      · rw [horgs, List.mem_append, List.mem_singleton] at hp
        refine hp.resolve_right fun heq => organizationId_ne hA hfresh hmem ?_
        rw [hm.organization_eq, ← hpid, heq, hoid]
    · right
      obtain rfl : u = user := h.user_eq hA hfresh h.mem_users hm.mem_users (.inr hm.user_eq)
      exact ⟨rfl, rfl, hm.subject_eq.symm.trans h.subject_eq, hm.organization_eq.symm,
        hm.subject_ne, hm.user_active, hm.membership_active⟩
  · rintro (hm | ⟨rfl, rfl, rfl, rfl, hne, hactive, hstatus⟩)
    · obtain ⟨p, hp, hpid, hpactive⟩ := hm.organization_active
      exact ⟨hm.subject_ne, h.mem_users_iff.mpr (.inl hm.mem_users), hm.subject_eq, hm.user_active,
        h.memberships ▸ List.mem_append_left _ hm.mem_memberships, hm.user_eq, hm.organization_eq,
        hm.membership_active, p, horgs ▸ List.mem_append_left _ hp, hpid, hpactive⟩
    · exact ⟨hne, h.mem_users, h.subject_eq, hactive,
        h.memberships ▸ List.mem_concat_self, rfl, rfl, hstatus, o, horgs ▸ List.mem_concat_self,
        hoid, hostatus ▸ hstatus⟩

/-- The roles of a membership that was there. -/
theorem rolesOf_eq (h : Provisioned A A' call ids u) (hfresh : A.Fresh ids) {m : MembershipRow}
    (hm : m ∈ A.memberships) (org : Uuid) : A'.rolesOf m.id org = A.rolesOf m.id org := by
  have hnew : ((A.roles.find? fun r => r.2 = "ANALYST".toList).map fun r =>
      (⟨ids.membershipRole, ids.organization, ids.membership, r.1⟩ :
        MembershipRoleRow)).toList.filter (fun mr =>
          mr.membershipId = m.id && mr.organizationId = org) = [] := by
    refine List.filter_eq_nil_iff.mpr fun mr hmr => ?_
    obtain ⟨r, -, rfl⟩ := Option.map_eq_some_iff.mp (Option.mem_toList.mp hmr)
    simp [(hfresh.membership m hm).symm]
  rw [rolesOf, rolesOf, h.membershipRoles, h.roles, List.filter_append, hnew, List.append_nil]

/-- The roles of the new membership: that of an analyst. -/
theorem rolesOf_new (h : Provisioned A A' call ids u) (hA : A.Sound) (hfresh : A.Fresh ids) :
    A'.rolesOf ids.membership ids.organization =
      (A.roles.find? fun r => r.2 = "ANALYST".toList).toList.flatMap fun r =>
        A.roles.filter fun r' => r'.1 = r.1 := by
  have hold : A.membershipRoles.filter (fun mr => mr.membershipId = ids.membership &&
      mr.organizationId = ids.organization) = [] := by
    refine List.filter_eq_nil_iff.mpr fun mr hmr => ?_
    obtain ⟨m, hm, hid, -⟩ := hA.membership mr hmr
    simp [← hid, hfresh.membership m hm]
  rw [rolesOf, h.membershipRoles, h.roles, List.filter_append, hold, List.nil_append]
  cases A.roles.find? fun r => r.2 = "ANALYST".toList with
  | none => rfl
  | some r => simp

/-- **A call changes the rights of nobody else**, and those of its user only for the organization
that it creates. -/
theorem resolveAuthContext_eq (h : Provisioned A A' call ids u) (hA : A.Sound)
    (hfresh : A.Fresh ids) {T : TextCase} {le : List Char → List Char → Bool} {subject : List Char}
    {org : Uuid} (hne : subject ≠ call.subject ∨ org ≠ ids.organization) :
    A'.resolveAuthContext T le subject org = A.resolveAuthContext T le subject org := by
  refine Option.ext fun row => ?_
  rw [resolveAuthContext_eq_some (h.sound hA hfresh).keys, resolveAuthContext_eq_some hA.keys]
  have hmember : ∀ user m, A'.ActiveMember T subject org user m ↔
      A.ActiveMember T subject org user m := fun user m => by
    rw [h.activeMember_iff hA hfresh]
    refine or_iff_left ?_
    rintro ⟨-, -, hsubject, horg, -⟩
    exact hne.elim (fun hne => hne hsubject) fun hne => hne horg
  refine exists₂_congr fun user m => ?_
  rw [hmember]
  refine and_congr_right fun hm => ?_
  rw [contextRow, contextRow, h.rolesOf_eq hfresh hm.mem_memberships, h.rolePermissions,
    h.permissions]

end Provisioned

/-- The roles of an analyst. -/
def analystRoles (A : AuthTables) : List (Uuid × List Char) :=
  (A.roles.find? fun r => r.2 = "ANALYST".toList).toList.flatMap fun r =>
    A.roles.filter fun r' => r'.1 = r.1

theorem mem_rolesOf {A : AuthTables} {id org : Uuid} {r : Uuid × List Char} :
    r ∈ A.rolesOf id org ↔ ∃ mr ∈ A.membershipRoles, mr.membershipId = id ∧
      mr.organizationId = org ∧ r ∈ A.roles ∧ r.1 = mr.roleId := by
  simp only [rolesOf, List.mem_flatMap, List.mem_filter, Bool.and_eq_true, decide_eq_true_eq,
    and_assoc]

/-- **An organization of one's own**: the user is its only member, as an analyst. -/
structure Personal (A : AuthTables) (subject : List Char) (org : Uuid) (user : UserRow)
    (membership : MembershipRow) : Prop where
  /-- the user -/
  mem_users : user ∈ A.users
  /-- he has the subject -/
  subject_eq : user.externalSubject = subject
  /-- the organization is active -/
  organization : ∃ o ∈ A.organizations, o.id = org ∧ o.status = "ACTIVE".toList
  /-- the membership -/
  mem_memberships : membership ∈ A.memberships
  /-- it is his -/
  user_eq : membership.userId = user.id
  /-- in the organization -/
  organization_eq : membership.organizationId = org
  /-- it is active -/
  status_eq : membership.status = "ACTIVE".toList
  /-- there is no other -/
  only : ∀ m ∈ A.memberships, m.organizationId = org → m = membership
  /-- his role -/
  roles : A.rolesOf membership.id org = A.analystRoles

namespace Personal

variable {A A' : AuthTables} {call : BootstrapCall} {ids : DrawnIds} {u user : UserRow}
  {subject : List Char} {org : Uuid} {membership : MembershipRow}

/-- The organization of a call is one. -/
theorem of_provisioned (h : Provisioned A A' call ids u) (hA : A.Sound) (hfresh : A.Fresh ids) :
    A'.Personal call.subject ids.organization u
      ⟨ids.membership, u.id, ids.organization, "ACTIVE".toList⟩ := by
  obtain ⟨o, horgs, hoid, hostatus⟩ := h.organizations
  refine ⟨h.mem_users, h.subject_eq, ⟨o, ?_, hoid, hostatus⟩, ?_, rfl, rfl, rfl,
    fun m hm horg => ?_, ?_⟩
  · exact horgs ▸ List.mem_concat_self
  · exact h.memberships ▸ List.mem_concat_self
  · exact (h.mem_memberships_iff.mp hm).resolve_left fun hm =>
      Provisioned.organizationId_ne hA hfresh hm horg
  · rw [h.rolesOf_new hA hfresh, analystRoles, h.roles]

/-- It stays one. -/
theorem provisioned (hp : A.Personal subject org user membership)
    (h : Provisioned A A' call ids u) (hfresh : A.Fresh ids) :
    A'.Personal subject org user membership := by
  obtain ⟨o, horgs, -⟩ := h.organizations
  obtain ⟨p, hpmem, hpid, hpstatus⟩ := hp.organization
  refine ⟨h.mem_users_iff.mpr (.inl hp.mem_users), hp.subject_eq, ⟨p, ?_, hpid, hpstatus⟩, ?_,
    hp.user_eq, hp.organization_eq, hp.status_eq, fun m hm horg => ?_, ?_⟩
  · exact horgs ▸ List.mem_append_left _ hpmem
  · exact h.memberships ▸ List.mem_append_left _ hp.mem_memberships
  · rcases h.mem_memberships_iff.mp hm with hm | rfl
    · exact hp.only m hm horg
    · exact absurd (hpid.trans horg.symm) (hfresh.organization p hpmem)
  · rw [h.rolesOf_eq hfresh hp.mem_memberships, hp.roles, analystRoles, analystRoles, h.roles]

/-- **Nobody else is admitted.** -/
theorem subject_of_activeMember (hp : A.Personal subject org user membership) (hA : A.Sound)
    {T : TextCase} {subject' : List Char} {user' : UserRow} {m : MembershipRow}
    (hm : A.ActiveMember T subject' org user' m) :
    subject' = subject ∧ user' = user ∧ m = membership := by
  obtain rfl := hp.only m hm.mem_memberships hm.organization_eq
  obtain rfl := hA.userIds user' hm.mem_users user hp.mem_users
    (hm.user_eq.symm.trans hp.user_eq)
  exact ⟨hm.subject_eq.symm.trans hp.subject_eq, rfl, rfl⟩

/-- What may be done there. -/
theorem grants_iff (hp : A.Personal subject org user membership) (hA : A.Sound) {T : TextCase}
    (hT : isActive T "ACTIVE".toList = true) {code : List Char} :
    A.Grants T subject org code ↔ sqlTrim subject ≠ [] ∧ isActive T user.status = true ∧
      ∃ r ∈ A.analystRoles, ∃ rp ∈ A.rolePermissions, rp.1 = r.1 ∧
        ∃ p ∈ A.permissions, p.1 = rp.2 ∧ p.2 = code := by
  constructor
  · rintro ⟨user', m', hm, mr, hmr, hmrm, hmro, r, hr, hrid, hperm⟩
    obtain ⟨-, rfl, rfl⟩ := hp.subject_of_activeMember hA hm
    refine ⟨hm.subject_ne, hm.user_active, r, ?_, hperm⟩
    rw [← hp.roles]
    exact mem_rolesOf.mpr ⟨mr, hmr, hmrm, hmro, hr, hrid⟩
  · rintro ⟨hne, hactive, r, hr, hperm⟩
    rw [← hp.roles] at hr
    obtain ⟨mr, hmr, hmrm, hmro, hr, hrid⟩ := mem_rolesOf.mp hr
    obtain ⟨o, ho, hid, hostatus⟩ := hp.organization
    exact ⟨user, membership, ⟨hne, hp.mem_users, hp.subject_eq, hactive, hp.mem_memberships,
      hp.user_eq, hp.organization_eq, hp.status_eq ▸ hT, o, ho, hid, hostatus ▸ hT⟩,
      mr, hmr, hmrm, hmro, r, hr, hrid, hperm⟩

end Personal

/-- **When a member is admitted.** -/
theorem Sound.isSome_resolveAuthContext_iff {A : AuthTables} (hA : A.Sound) {T : TextCase}
    {le : List Char → List Char → Bool} {subject : List Char} {org : Uuid} {user : UserRow}
    {m : MembershipRow} {o : OrganizationRow} (huser : user ∈ A.users)
    (hsubject : user.externalSubject = subject) (hm : m ∈ A.memberships) (hmu : m.userId = user.id)
    (hmo : m.organizationId = org) (hmstatus : isActive T m.status = true)
    (ho : o ∈ A.organizations) (hid : o.id = org) :
    (A.resolveAuthContext T le subject org).isSome = true ↔
      sqlTrim subject ≠ [] ∧ isActive T user.status = true ∧ isActive T o.status = true := by
  constructor
  · intro hsome
    obtain ⟨row, hrow⟩ := Option.isSome_iff_exists.mp hsome
    obtain ⟨user', m', hm', -⟩ := (resolveAuthContext_eq_some hA.keys).mp hrow
    obtain ⟨o', ho', hid', hoactive⟩ := hm'.organization_active
    obtain rfl := hA.keys.subject user' hm'.mem_users user huser
      (hm'.subject_eq.trans hsubject.symm)
    obtain rfl := hA.keys.organization o' ho' o ho (hid'.trans hid.symm)
    exact ⟨hm'.subject_ne, hm'.user_active, hoactive⟩
  · rintro ⟨hne, hactive, hoactive⟩
    rw [(resolveAuthContext_eq_some hA.keys).mpr ⟨user, m, ⟨hne, huser, hsubject, hactive, hm, hmu,
      hmo, hmstatus, o, ho, hid, hoactive⟩, rfl⟩]
    rfl

/-- An active membership is found. -/
theorem memberOrganization_isSome (row : ℕ) {A : AuthTables} {subject : List Char}
    {user : UserRow} {m : MembershipRow} (huser : user ∈ A.users) (hsubject : user.externalSubject = subject)
    (hm : m ∈ A.memberships) (hmu : m.userId = user.id) (hstatus : m.status = "ACTIVE".toList) :
    ∃ org, A.memberOrganization subject row = some org := by
  have hmem : m ∈ A.activeMemberships subject :=
    List.mem_flatMap.mpr ⟨user, List.mem_filter.mpr ⟨huser, decide_eq_true hsubject⟩,
      List.mem_filter.mpr ⟨hm, by simp [hmu, hstatus]⟩⟩
  have hlt := Nat.mod_lt row (List.length_pos_of_mem hmem)
  exact ⟨_, by rw [memberOrganization, List.getElem?_eq_getElem hlt]; rfl⟩

/-- What is found is an active membership. -/
theorem memberOrganization_eq_some {A : AuthTables} {subject : List Char} {row : ℕ} {org : Uuid}
    (h : A.memberOrganization subject row = some org) :
    ∃ user ∈ A.users, user.externalSubject = subject ∧ ∃ m ∈ A.memberships, m.userId = user.id ∧
      m.organizationId = org ∧ m.status = "ACTIVE".toList := by
  obtain ⟨m, hm, rfl⟩ := Option.map_eq_some_iff.mp h
  obtain ⟨user, huser, hm⟩ := List.mem_flatMap.mp (List.mem_of_getElem? hm)
  obtain ⟨huser, hsubject⟩ := List.mem_filter.mp huser
  obtain ⟨hm, hfits⟩ := List.mem_filter.mp hm
  simp only [Bool.and_eq_true, decide_eq_true_eq] at hfits
  exact ⟨user, huser, of_decide_eq_true hsubject, m, hm, hfits.1, rfl, hfits.2⟩

end AuthTables

/-! ## Calls at the same time -/

/-- How far a call is. -/
inductive BootstrapStatus where
  /-- it has found no membership -/
  | creating
  /-- it has been answered with an organization, and with whether it was created -/
  | answered (organization : Uuid) (wasCreated : Bool)
  /-- it has raised -/
  | failed
deriving DecidableEq

/-- What a call does next. -/
inductive BootstrapEvent where
  /-- it looks for a membership, and gets the one with the number `row` -/
  | look (call : BootstrapCall) (row : ℕ)
  /-- it creates, and commits -/
  | create (ids : DrawnIds)
  /-- it raises, or its connection is lost -/
  | fail

/-- The tables and the calls. -/
structure OnboardingSys where
  /-- what is committed -/
  tables : AuthTables
  /-- the calls, by their numbers -/
  calls : ℕ → Option (BootstrapCall × BootstrapStatus) := fun _ => none

/-- One event of a call. -/
def OnboardingSys.step (s : OnboardingSys) (a : ℕ × BootstrapEvent) : Option OnboardingSys :=
  match a.2 with
  | .look call row =>
    match s.calls a.1 with
    | none =>
      let status := match s.tables.memberOrganization call.subject row with
        | some organization => .answered organization false
        | none => .creating
      some { s with calls := Function.update s.calls a.1 (some (call, status)) }
    | some _ => none
  | .create ids =>
    match s.calls a.1 with
    | some (call, .creating) =>
      -- `external_subject` has 255 characters, `identity_provider` 50
      if s.tables.Fresh ids ∧ call.subject.length ≤ 255 ∧ call.provider.length ≤ 50 then
        some {
          tables := s.tables.provision call ids
          calls := Function.update s.calls a.1 (some (call, .answered ids.organization true)) }
      else none
    | _ => none
  | .fail =>
    match s.calls a.1 with
    | some (call, .creating) =>
      some { s with calls := Function.update s.calls a.1 (some (call, .failed)) }
    | _ => none

namespace OnboardingSys

variable {s s' : OnboardingSys} {i : ℕ}

theorem step_look {call : BootstrapCall} {row : ℕ} (h : s.step (i, .look call row) = some s') :
    s.calls i = none ∧ s' = { s with calls := Function.update s.calls i (some (call,
      (s.tables.memberOrganization call.subject row).elim .creating (.answered · false))) } := by
  simp only [step] at h
  split at h
  next hnone =>
    refine ⟨hnone, ?_⟩
    rw [← Option.some.inj h]
    cases s.tables.memberOrganization call.subject row <;> rfl
  next => cases h

theorem step_create {ids : DrawnIds} (h : s.step (i, .create ids) = some s') :
    ∃ call, s.calls i = some (call, .creating) ∧ s.tables.Fresh ids ∧ s' = {
      tables := s.tables.provision call ids
      calls := Function.update s.calls i (some (call, .answered ids.organization true)) } := by
  simp only [step] at h
  split at h
  next call hcall =>
    split at h
    next hfits => exact ⟨call, hcall, hfits.1, (Option.some.inj h).symm⟩
    next => cases h
  next => cases h

theorem step_fail (h : s.step (i, .fail) = some s') :
    ∃ call, s.calls i = some (call, .creating) ∧
      s' = { s with calls := Function.update s.calls i (some (call, .failed)) } := by
  simp only [step] at h
  split at h
  next call hcall => exact ⟨call, hcall, (Option.some.inj h).symm⟩
  next => cases h

/-- A call that has been answered has been. -/
theorem calls_step {a : ℕ × BootstrapEvent} (h : s.step a = some s') {j : ℕ} {call : BootstrapCall}
    {org : Uuid} {wasCreated : Bool} (hj : s.calls j = some (call, .answered org wasCreated)) :
    s'.calls j = some (call, .answered org wasCreated) := by
  have hne : ∀ x, s.calls a.1 = x → x ≠ some (call, .answered org wasCreated) → j ≠ a.1 := by
    rintro x hx hne rfl
    exact hne (hx.symm.trans hj)
  obtain ⟨i, e⟩ := a
  cases e with
  | look call' _ =>
    obtain ⟨hnone, rfl⟩ := step_look h
    exact (Function.update_of_ne (hne _ hnone (by simp)) _ _).trans hj
  | create ids =>
    obtain ⟨call', hcall, -, rfl⟩ := step_create h
    exact (Function.update_of_ne (hne _ hcall (by simp)) _ _).trans hj
  | fail =>
    obtain ⟨call', hcall, rfl⟩ := step_fail h
    exact (Function.update_of_ne (hne _ hcall (by simp)) _ _).trans hj

theorem calls_run {l : List (ℕ × BootstrapEvent)} (h : runSteps step s l = some s') {j : ℕ}
    {call : BootstrapCall} {org : Uuid} {wasCreated : Bool}
    (hj : s.calls j = some (call, .answered org wasCreated)) :
    s'.calls j = some (call, .answered org wasCreated) :=
  runSteps_invariant (I := fun t => t.calls j = some (call, .answered org wasCreated))
    (fun _ _ _ _ hi hs => calls_step hs hi) hj h

end OnboardingSys

/-- **What holds while users are given organizations**, from the tables `A₀`. -/
structure OnboardingInv (A₀ : AuthTables) (s : OnboardingSys) : Prop where
  /-- the keys -/
  sound : s.tables.Sound
  /-- organizations stay -/
  organizations : ∀ o ∈ A₀.organizations, o ∈ s.tables.organizations
  /-- the rights are those of before, but for organizations that are created -/
  kept : ∀ T le subject org, s.tables.resolveAuthContext T le subject org =
      A₀.resolveAuthContext T le subject org ∨
    ∃ i call, s.calls i = some (call, .answered org true) ∧ call.subject = subject
  /-- an organization that is created is the user's own -/
  personal : ∀ i call org, s.calls i = some (call, .answered org true) →
    ∃ user membership, s.tables.Personal call.subject org user membership
  /-- it was not there before -/
  created : ∀ i call org, s.calls i = some (call, .answered org true) →
    ∀ o ∈ A₀.organizations, o.id ≠ org
  /-- an organization that is found is one of an active membership -/
  found : ∀ i call org, s.calls i = some (call, .answered org false) →
    ∃ user ∈ s.tables.users, user.externalSubject = call.subject ∧
      ∃ m ∈ s.tables.memberships, m.userId = user.id ∧ m.organizationId = org ∧
        m.status = "ACTIVE".toList

namespace OnboardingInv

variable {A₀ : AuthTables} {s s' : OnboardingSys}

theorem start (h : A₀.Sound) : OnboardingInv A₀ { tables := A₀ } where
  sound := h
  organizations _ ho := ho
  kept _ _ _ _ := .inl rfl
  personal _ _ _ h := by cases h
  created _ _ _ h := by cases h
  found _ _ _ h := by cases h

/-- The calls of which nothing is created change nothing. -/
theorem of_tables_eq (h : OnboardingInv A₀ s) {i : ℕ} {x : BootstrapCall × BootstrapStatus}
    (hold : ∀ call org, s.calls i ≠ some (call, .answered org true))
    (hnew : ∀ org, x.2 ≠ .answered org true)
    (hfound : ∀ org, x.2 = .answered org false → ∃ user ∈ s.tables.users,
      user.externalSubject = x.1.subject ∧ ∃ m ∈ s.tables.memberships, m.userId = user.id ∧
        m.organizationId = org ∧ m.status = "ACTIVE".toList) :
    OnboardingInv A₀ { s with calls := Function.update s.calls i (some x) } := by
  have hcreated : ∀ j call org,
      Function.update s.calls i (some x) j = some (call, .answered org true) ↔
        s.calls j = some (call, .answered org true) := fun j call org => by
    by_cases hj : j = i
    · rw [hj, Function.update_self]
      exact iff_of_false (fun heq => hnew org (congrArg Prod.snd (Option.some.inj heq)))
        (hold call org)
    · rw [Function.update_of_ne hj]
  refine ⟨h.sound, h.organizations, fun T le subject org => ?_, fun j call org hj => ?_,
    fun j call org hj => ?_, fun j call org hj => ?_⟩
  · refine (h.kept T le subject org).imp_right ?_
    rintro ⟨j, call, hj, hsubject⟩
    exact ⟨j, call, (hcreated j call org).mpr hj, hsubject⟩
  · exact h.personal j call org ((hcreated j call org).mp hj)
  · exact h.created j call org ((hcreated j call org).mp hj)
  · by_cases heq : j = i
    · subst heq
      have hx := Option.some.inj ((Function.update_self j _ _).symm.trans hj)
      obtain ⟨user, huser, hsubject, hm⟩ := hfound org (congrArg Prod.snd hx)
      exact ⟨user, huser, hsubject.trans (congrArg (·.1.subject) hx), hm⟩
    · exact h.found j call org ((Function.update_of_ne heq _ _).symm.trans hj)

/-- **An event keeps it.** -/
theorem step (h : OnboardingInv A₀ s) {a : ℕ × BootstrapEvent} (hs : s.step a = some s') :
    OnboardingInv A₀ s' := by
  obtain ⟨i, e⟩ := a
  cases e with
  | look call row =>
    obtain ⟨hnone, rfl⟩ := OnboardingSys.step_look hs
    refine h.of_tables_eq (fun _ _ heq => ?_) (fun org heq => ?_) fun org heq => ?_
    · rw [hnone] at heq
      cases heq
    · cases hm : s.tables.memberOrganization call.subject row <;> rw [hm] at heq <;> cases heq
    · cases hm : s.tables.memberOrganization call.subject row with
      | none =>
        rw [hm] at heq
        cases heq
      | some o =>
        rw [hm] at heq
        obtain rfl : o = org := by
          cases heq
          rfl
        exact AuthTables.memberOrganization_eq_some hm
  | create ids =>
    obtain ⟨call, hcall, hfresh, rfl⟩ := OnboardingSys.step_create hs
    obtain ⟨u, hu⟩ := AuthTables.exists_provisioned s.tables call ids
    obtain ⟨o, horgs, -⟩ := hu.organizations
    refine ⟨hu.sound h.sound hfresh, fun p hp => ?_, fun T le subject org => ?_,
      fun j c org hj => ?_, fun j c org hj => ?_, fun j c org hj => ?_⟩
    · exact horgs ▸ List.mem_append_left _ (h.organizations p hp)
    · by_cases hown : subject = call.subject ∧ org = ids.organization
      · obtain ⟨rfl, rfl⟩ := hown
        exact .inr ⟨i, call, Function.update_self .., rfl⟩
      · have hne : subject ≠ call.subject ∨ org ≠ ids.organization := by tauto
        rw [hu.resolveAuthContext_eq h.sound hfresh hne]
        refine (h.kept T le subject org).imp_right ?_
        rintro ⟨j, c, hj, hsubject⟩
        refine ⟨j, c, (Function.update_of_ne ?_ _ _).trans hj, hsubject⟩
        rintro rfl
        rw [hcall] at hj
        cases hj
    · by_cases heq : j = i
      · subst heq
        cases (Function.update_self j _ _).symm.trans hj
        exact ⟨u, _, .of_provisioned hu h.sound hfresh⟩
      · obtain ⟨user, m, hp⟩ := h.personal j c org ((Function.update_of_ne heq _ _).symm.trans hj)
        exact ⟨user, m, hp.provisioned hu hfresh⟩
    · by_cases heq : j = i
      · subst heq
        cases (Function.update_self j _ _).symm.trans hj
        exact fun p hp => hfresh.organization p (h.organizations p hp)
      · exact h.created j c org ((Function.update_of_ne heq _ _).symm.trans hj)
    · by_cases heq : j = i
      · subst heq
        cases (Function.update_self j _ _).symm.trans hj
      · obtain ⟨user, huser, hsubject, m, hm, hmu, hmo, hstatus⟩ :=
          h.found j c org ((Function.update_of_ne heq _ _).symm.trans hj)
        exact ⟨user, hu.mem_users_iff.mpr (.inl huser), hsubject, m,
          hu.memberships ▸ List.mem_append_left _ hm, hmu, hmo, hstatus⟩
  | fail =>
    obtain ⟨call, hcall, rfl⟩ := OnboardingSys.step_fail hs
    refine h.of_tables_eq (fun _ _ heq => ?_) (fun org heq => ?_) fun org heq => ?_
    · rw [hcall] at heq
      cases heq
    · cases heq
    · cases heq

theorem run (hA₀ : A₀.Sound) {l : List (ℕ × BootstrapEvent)}
    (hrun : runSteps OnboardingSys.step { tables := A₀ } l = some s') : OnboardingInv A₀ s' :=
  runSteps_invariant (fun _ _ _ _ h hs => h.step hs) (start hA₀) hrun

end OnboardingInv

/-! ## Who gets what -/

variable {A₀ : AuthTables} {s' : OnboardingSys}

/-- **Onboarding is private.** Whatever calls run at the same time, and however they are
interleaved: the rights that anybody has in an organization are those he had before, unless a call
of his own has created it, and it was not there before. And nobody but the user of the call is
admitted to an organization that was created. -/
theorem onboarding_private (hA₀ : A₀.Sound) {l : List (ℕ × BootstrapEvent)}
    (hrun : runSteps OnboardingSys.step { tables := A₀ } l = some s') (T : TextCase)
    (le : List Char → List Char → Bool) (subject : List Char) (org : Uuid) :
    (s'.tables.resolveAuthContext T le subject org = A₀.resolveAuthContext T le subject org ∨
      (∀ o ∈ A₀.organizations, o.id ≠ org) ∧
        ∃ i call, s'.calls i = some (call, .answered org true) ∧ call.subject = subject) ∧
    ∀ i call, s'.calls i = some (call, .answered org true) → ∀ row,
      s'.tables.resolveAuthContext T le subject org = some row → subject = call.subject := by
  have h := OnboardingInv.run hA₀ hrun
  refine ⟨(h.kept T le subject org).imp_right ?_, fun i call hi row hrow => ?_⟩
  · rintro ⟨i, call, hi, hsubject⟩
    exact ⟨h.created i call org hi, i, call, hi, hsubject⟩
  · obtain ⟨user, m, hp⟩ := h.personal i call org hi
    obtain ⟨user', m', hm, -⟩ :=
      (AuthTables.resolveAuthContext_eq_some h.sound.keys).mp hrow
    exact (hp.subject_of_activeMember h.sound hm).1

/-- The role of an analyst, who reads. -/
def analystTables : AuthTables where
  roles := [(6, "ANALYST".toList)]
  rolePermissions := [(6, 7)]
  permissions := [(7, "documents:read".toList)]

theorem analystTables_sound : analystTables.Sound := by
  refine ⟨⟨?_, ?_, ?_⟩, ?_, ?_, ?_, ?_, ?_⟩ <;> simp [analystTables]

/-- A user who asks twice. -/
def firstUser : BootstrapCall := ⟨['u'], "firebase".toList, ['U']⟩

/-- The calls, one after the other. -/
def askedTwice : List (ℕ × BootstrapEvent) :=
  [(0, .look firstUser 0), (0, .create ⟨5, 1, 2, 3, 4⟩), (1, .look firstUser 3)]

theorem askedTwice_run : ∃ s', runSteps OnboardingSys.step { tables := analystTables } askedTwice =
    some s' ∧ s'.calls 0 = some (firstUser, .answered 5 true) := ⟨_, rfl, rfl⟩

theorem onboarding_private_first :
    ∃ s', runSteps OnboardingSys.step { tables := analystTables } askedTwice = some s' ∧
      ∀ row, s'.tables.resolveAuthContext .ascii (fun _ _ => true) ['v'] 5 = some row →
        ['v'] = firstUser.subject := by
  obtain ⟨s', hrun, hcall⟩ := askedTwice_run
  exact ⟨s', hrun, (onboarding_private analystTables_sound hrun .ascii _ ['v'] 5).2 0 _ hcall⟩

/-- **Who is admitted.** A call that is answered with an organization has a user in the tables, and
the user is admitted there exactly if his subject is not blank and he and the organization are
active; an organization that was created is active, and its permissions are those of an analyst. -/
theorem onboarded_admitted (hA₀ : A₀.Sound) {l : List (ℕ × BootstrapEvent)}
    (hrun : runSteps OnboardingSys.step { tables := A₀ } l = some s') {T : TextCase}
    (hT : isActive T "ACTIVE".toList = true) (le : List Char → List Char → Bool) {i : ℕ}
    {call : BootstrapCall} {org : Uuid} {wasCreated : Bool}
    (hi : s'.calls i = some (call, .answered org wasCreated)) :
    ∃ user ∈ s'.tables.users, user.externalSubject = call.subject ∧
      ∃ o ∈ s'.tables.organizations, o.id = org ∧
        ((s'.tables.resolveAuthContext T le call.subject org).isSome = true ↔
          sqlTrim call.subject ≠ [] ∧ isActive T user.status = true ∧
            isActive T o.status = true) ∧
        (wasCreated = true → isActive T o.status = true ∧ ∀ code,
          s'.tables.Grants T call.subject org code ↔
            sqlTrim call.subject ≠ [] ∧ isActive T user.status = true ∧
              ∃ r ∈ s'.tables.analystRoles, ∃ rp ∈ s'.tables.rolePermissions, rp.1 = r.1 ∧
                ∃ p ∈ s'.tables.permissions, p.1 = rp.2 ∧ p.2 = code) := by
  have h := OnboardingInv.run hA₀ hrun
  cases wasCreated with
  | true =>
    obtain ⟨user, m, hp⟩ := h.personal i call org hi
    obtain ⟨o, ho, hid, hostatus⟩ := hp.organization
    exact ⟨user, hp.mem_users, hp.subject_eq, o, ho, hid,
      h.sound.isSome_resolveAuthContext_iff hp.mem_users hp.subject_eq hp.mem_memberships
        hp.user_eq hp.organization_eq (hp.status_eq ▸ hT) ho hid,
      fun _ => ⟨hostatus ▸ hT, fun _ => hp.grants_iff h.sound hT⟩⟩
  | false =>
    obtain ⟨user, huser, hsubject, m, hm, hmu, hmo, hstatus⟩ := h.found i call org hi
    obtain ⟨o, ho, hid⟩ := h.sound.organization m hm
    exact ⟨user, huser, hsubject, o, ho, hid.trans hmo,
      h.sound.isSome_resolveAuthContext_iff huser hsubject hm hmu hmo (hstatus ▸ hT) ho
        (hid.trans hmo),
      fun hcreated => by cases hcreated⟩

theorem onboarded_admitted_first :
    ∃ s', runSteps OnboardingSys.step { tables := analystTables } askedTwice = some s' ∧
      ∃ user ∈ s'.tables.users, user.externalSubject = ['u'] ∧
        (s'.tables.Grants .ascii ['u'] 5 "documents:read".toList ↔
          sqlTrim ['u'] ≠ [] ∧ isActive .ascii user.status = true ∧
            ∃ r ∈ s'.tables.analystRoles, ∃ rp ∈ s'.tables.rolePermissions, rp.1 = r.1 ∧
              ∃ p ∈ s'.tables.permissions, p.1 = rp.2 ∧ p.2 = "documents:read".toList) := by
  obtain ⟨s', hrun, hcall⟩ := askedTwice_run
  have hT : isActive .ascii "ACTIVE".toList = true := by decide
  obtain ⟨user, huser, hsubject, o, -, -, -, hcreated⟩ :=
    onboarded_admitted analystTables_sound hrun hT (fun _ _ => true) hcall
  exact ⟨s', hrun, user, huser, hsubject, (hcreated rfl).2 _⟩

/-- **A second organization only in a race.** Once a call has created an organization for a user,
every call of this user that looks later is answered with an organization that was there: two calls
that both create one have both looked before either has created. -/
theorem onboarded_once (hA₀ : A₀.Sound) {l₁ l₂ : List (ℕ × BootstrapEvent)} {i j : ℕ}
    {ids : DrawnIds} {call call' : BootstrapCall} {org : Uuid} {row : ℕ}
    (hrun : runSteps OnboardingSys.step { tables := A₀ } (l₁ ++ (i, .create ids) :: l₂) = some s')
    (hi : s'.calls i = some (call, .answered org true)) (hlook : (j, .look call' row) ∈ l₂)
    (hsubject : call'.subject = call.subject) :
    ∃ org', s'.calls j = some (call', .answered org' false) := by
  obtain ⟨m₁, m₂, rfl⟩ := List.append_of_mem hlook
  rw [runSteps_append] at hrun
  obtain ⟨s₁, h₁, hrun⟩ := Option.bind_eq_some_iff.mp hrun
  obtain ⟨s₂, hcreate, hrun⟩ := runSteps_cons hrun
  rw [runSteps_append] at hrun
  obtain ⟨t, ht, hrun⟩ := Option.bind_eq_some_iff.mp hrun
  obtain ⟨t', hlooks, hrest⟩ := runSteps_cons hrun
  -- the organization has been created before the call looks
  obtain ⟨c, -, -, hs₂⟩ := OnboardingSys.step_create hcreate
  have hcalls₂ : s₂.calls i = some (c, .answered ids.organization true) := by
    rw [hs₂]
    exact Function.update_self ..
  have hcallst := OnboardingSys.calls_run ht hcalls₂
  have hcalls' := OnboardingSys.calls_run hrest (OnboardingSys.calls_step hlooks hcallst)
  obtain ⟨rfl, -⟩ := Prod.mk.inj (Option.some.inj (hcalls'.symm.trans hi))
  have hinv : OnboardingInv A₀ t :=
    runSteps_invariant (fun _ _ _ _ h hs => h.step hs) ((OnboardingInv.run hA₀ h₁).step hcreate) ht
  obtain ⟨user, m, hp⟩ := hinv.personal i c ids.organization hcallst
  obtain ⟨org', horg'⟩ := AuthTables.memberOrganization_isSome row hp.mem_users
    (hp.subject_eq.trans hsubject.symm) hp.mem_memberships hp.user_eq hp.status_eq
  obtain ⟨-, rfl⟩ := OnboardingSys.step_look hlooks
  refine ⟨org', OnboardingSys.calls_run hrest ?_⟩
  rw [horg']
  exact Function.update_self ..

theorem onboarded_once_first : ∃ s', runSteps OnboardingSys.step { tables := analystTables }
    askedTwice = some s' ∧ ∃ org, s'.calls 1 = some (firstUser, .answered org false) := by
  obtain ⟨s', hrun, hcall⟩ := askedTwice_run
  have hsplit : askedTwice = [(0, .look firstUser 0)] ++ (0, .create ⟨5, 1, 2, 3, 4⟩) ::
      [(1, .look firstUser 3)] := rfl
  rw [hsplit] at hrun
  exact ⟨s', hrun, onboarded_once analystTables_sound hrun hcall List.mem_cons_self rfl⟩

end FinanceIntelligence
