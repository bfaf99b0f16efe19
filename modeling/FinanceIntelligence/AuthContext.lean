import FinanceIntelligence.ErrorEnvelopes
import FinanceIntelligence.NumberParsing
import FinanceIntelligence.Raising
import FinanceIntelligence.Replacement
import FinanceIntelligence.RequestPlan
import Mathlib.Data.List.Dedup
import Mathlib.Data.List.Sort
import Mathlib.Data.Option.Basic

/-!
# Who may do what

Every request says who sends it, by a token of an identity provider, and for which organization, by
a header. `get_execution_context` (dependencies.py) checks the token and asks the database function
`resolve_auth_context` (alembic/versions/027_auth_context_lookup_security_plane.py) for the user,
the organization, the roles and the permissions; an endpoint may require one of these.

* `resolveAuthContext_eq_some` and `mem_permissions_iff` — what the function finds, as **joins**
  of the tables.
* `permission_iff` — outside of development a request passes `require_permission` **exactly if** its
  token is valid and the user of the token has the permission in an active organization by a role of
  his active membership there.
-/

namespace FinanceIntelligence

/-! ## Tables -/

/-- A row of `users`. -/
structure UserRow where
  id : Uuid
  externalSubject : List Char
  identityProvider : List Char
  displayName : List Char
  status : List Char
deriving DecidableEq

/-- A row of `organizations`. -/
structure OrganizationRow where
  id : Uuid
  name : List Char
  slug : List Char
  status : List Char
deriving DecidableEq

/-- A row of `memberships`. -/
structure MembershipRow where
  id : Uuid
  userId : Uuid
  organizationId : Uuid
  status : List Char
deriving DecidableEq

/-- A row of `membership_roles`. -/
structure MembershipRoleRow where
  id : Uuid
  organizationId : Uuid
  membershipId : Uuid
  roleId : Uuid
deriving DecidableEq

/-- The tables of users and their rights. -/
structure AuthTables where
  users : List UserRow := []
  organizations : List OrganizationRow := []
  memberships : List MembershipRow := []
  membershipRoles : List MembershipRoleRow := []
  /-- `roles`, by their ids and names -/
  roles : List (Uuid × List Char) := []
  /-- `role_permissions`, by their roles and permissions -/
  rolePermissions : List (Uuid × Uuid) := []
  /-- `permissions`, by their ids and codes -/
  permissions : List (Uuid × List Char) := []

/-- A row of `resolve_auth_context`. -/
structure AuthContextRow where
  actorUserId : Uuid
  activeOrganizationId : Uuid
  roles : List (List Char)
  permissions : List (List Char)
deriving DecidableEq

/-- `trim` -/
def sqlTrim (text : List Char) : List Char :=
  ((text.dropWhile (· == ' ')).reverse.dropWhile (· == ' ')).reverse

/-- `lower(status) = 'active'` -/
def isActive (T : TextCase) (status : List Char) : Bool := T.lower status == "active".toList

namespace AuthTables

/-- The roles of a membership, with those of its `membership_roles` that are of the organization. -/
def rolesOf (A : AuthTables) (membershipId organizationId : Uuid) : List (Uuid × List Char) :=
  (A.membershipRoles.filter fun mr =>
    mr.membershipId = membershipId && mr.organizationId = organizationId).flatMap fun mr =>
      A.roles.filter fun r => r.1 = mr.roleId

/-- `array_agg(DISTINCT x ORDER BY x)`, in the order of the database. -/
def arrayAgg (le : List Char → List Char → Bool) (texts : List (List Char)) : List (List Char) :=
  texts.dedup.mergeSort le

/-- The row for a user and his membership. -/
def contextRow (le : List Char → List Char → Bool) (A : AuthTables) (user : UserRow)
    (membership : MembershipRow) (organizationId : Uuid) : AuthContextRow where
  actorUserId := user.id
  activeOrganizationId := organizationId
  roles := arrayAgg le ((A.rolesOf membership.id organizationId).map (·.2))
  permissions := arrayAgg le ((A.rolesOf membership.id organizationId).flatMap fun r =>
    (A.rolePermissions.filter fun rp => rp.1 = r.1).flatMap fun rp =>
      (A.permissions.filter fun p => p.1 = rp.2).map (·.2))

/-- `resolve_auth_context` -/
def resolveAuthContext (T : TextCase) (le : List Char → List Char → Bool) (A : AuthTables)
    (firebaseUid : List Char) (organizationId : Uuid) : Option AuthContextRow := do
  guard (sqlTrim firebaseUid ≠ [])
  let user ← A.users.find? fun u => u.externalSubject = firebaseUid
  guard (isActive T user.status)
  let organization ← A.organizations.find? fun o => o.id = organizationId
  guard (isActive T organization.status)
  let membership ← A.memberships.find? fun m =>
    m.userId = user.id && m.organizationId = organizationId
  guard (isActive T membership.status)
  pure (A.contextRow le user membership organizationId)

/-- The unique keys that the function looks up. -/
structure UniqueKeys (A : AuthTables) : Prop where
  /-- `users.external_subject` -/
  subject : ∀ u ∈ A.users, ∀ u' ∈ A.users, u.externalSubject = u'.externalSubject → u = u'
  /-- `organizations.id` -/
  organization : ∀ o ∈ A.organizations, ∀ o' ∈ A.organizations, o.id = o'.id → o = o'
  /-- `uq_user_organization` -/
  membership : ∀ m ∈ A.memberships, ∀ m' ∈ A.memberships, m.userId = m'.userId →
    m.organizationId = m'.organizationId → m = m'

/-- **An active membership**: of an active user, by the subject of his identity, in an active
organization. -/
structure ActiveMember (T : TextCase) (A : AuthTables) (subject : List Char) (organizationId : Uuid)
    (user : UserRow) (membership : MembershipRow) : Prop where
  /-- the subject is not blank -/
  subject_ne : sqlTrim subject ≠ []
  /-- there is the user -/
  mem_users : user ∈ A.users
  /-- he has the subject -/
  subject_eq : user.externalSubject = subject
  /-- he is active -/
  user_active : isActive T user.status = true
  /-- there is the membership -/
  mem_memberships : membership ∈ A.memberships
  /-- it is his -/
  user_eq : membership.userId = user.id
  /-- in the organization -/
  organization_eq : membership.organizationId = organizationId
  /-- it is active -/
  membership_active : isActive T membership.status = true
  /-- the organization is there and active -/
  organization_active : ∃ o ∈ A.organizations, o.id = organizationId ∧ isActive T o.status = true

/-- **A permission that is granted**: by a role of an active membership. -/
def Grants (T : TextCase) (A : AuthTables) (subject : List Char) (organizationId : Uuid)
    (code : List Char) : Prop :=
  ∃ user membership, ActiveMember T A subject organizationId user membership ∧
    ∃ mr ∈ A.membershipRoles, mr.membershipId = membership.id ∧
      mr.organizationId = organizationId ∧
      ∃ r ∈ A.roles, r.1 = mr.roleId ∧ ∃ rp ∈ A.rolePermissions, rp.1 = r.1 ∧
        ∃ p ∈ A.permissions, p.1 = rp.2 ∧ p.2 = code

variable {T : TextCase} {le : List Char → List Char → Bool} {A : AuthTables} {subject : List Char}
  {organizationId : Uuid}

theorem mem_arrayAgg {texts : List (List Char)} {x : List Char} :
    x ∈ arrayAgg le texts ↔ x ∈ texts := by
  rw [arrayAgg, List.mem_mergeSort, List.mem_dedup]

/-- **What the function finds.** -/
theorem resolveAuthContext_eq_some_iff {row : AuthContextRow} :
    A.resolveAuthContext T le subject organizationId = some row ↔
      sqlTrim subject ≠ [] ∧ ∃ user o membership,
        A.users.find? (fun u => u.externalSubject = subject) = some user ∧
        isActive T user.status = true ∧
        A.organizations.find? (fun o => o.id = organizationId) = some o ∧
        isActive T o.status = true ∧
        A.memberships.find? (fun m => m.userId = user.id && m.organizationId = organizationId) =
          some membership ∧
        isActive T membership.status = true ∧
        row = A.contextRow le user membership organizationId := by
  simp only [resolveAuthContext, Option.bind_eq_bind, Option.bind_eq_some_iff,
    Option.guard_eq_some', Option.pure_def, Option.some.injEq]
  constructor
  · rintro ⟨_, hne, user, huser, _, hactive, o, ho, _, hoactive, m, hm, _, hmactive, rfl⟩
    exact ⟨hne, user, o, m, huser, hactive, ho, hoactive, hm, hmactive, rfl⟩
  · rintro ⟨hne, user, o, m, huser, hactive, ho, hoactive, hm, hmactive, rfl⟩
    exact ⟨(), hne, user, huser, (), hactive, o, ho, (), hoactive, m, hm, (), hmactive, rfl⟩

/-- The first row that fits, where no two do. -/
theorem find?_eq_some_iff_of_unique {α : Type} {l : List α} {p : α → Bool} {a : α}
    (h : ∀ x ∈ l, ∀ y ∈ l, p x = true → p y = true → x = y) :
    l.find? p = some a ↔ a ∈ l ∧ p a = true := by
  constructor
  · exact fun hfind => ⟨List.mem_of_find?_eq_some hfind, List.find?_some hfind⟩
  · rintro ⟨hmem, hp⟩
    cases hfind : l.find? p with
    | none => exact absurd hp (by simpa using List.find?_eq_none.mp hfind a hmem)
    | some b =>
      exact congrArg some
        (h b (List.mem_of_find?_eq_some hfind) a hmem (List.find?_some hfind) hp)

/-- **Who is admitted**: an active member, with the roles and the permissions of his membership. -/
theorem resolveAuthContext_eq_some (hA : A.UniqueKeys) {row : AuthContextRow} :
    A.resolveAuthContext T le subject organizationId = some row ↔
      ∃ user membership, ActiveMember T A subject organizationId user membership ∧
        row = A.contextRow le user membership organizationId := by
  have huser : ∀ u, A.users.find? (fun u => u.externalSubject = subject) = some u ↔
      u ∈ A.users ∧ u.externalSubject = subject := fun u => by
    rw [find?_eq_some_iff_of_unique fun x hx y hy hp hq => hA.subject x hx y hy
      ((of_decide_eq_true hp).trans (of_decide_eq_true hq).symm), decide_eq_true_eq]
  have horganization : ∀ o, A.organizations.find? (fun o => o.id = organizationId) = some o ↔
      o ∈ A.organizations ∧ o.id = organizationId := fun o => by
    rw [find?_eq_some_iff_of_unique fun x hx y hy hp hq => hA.organization x hx y hy
      ((of_decide_eq_true hp).trans (of_decide_eq_true hq).symm), decide_eq_true_eq]
  have hmembership : ∀ id m, A.memberships.find? (fun m => m.userId = id &&
      m.organizationId = organizationId) = some m ↔
        m ∈ A.memberships ∧ m.userId = id ∧ m.organizationId = organizationId := fun id m => by
    rw [find?_eq_some_iff_of_unique fun x hx y hy hp hq => ?_]
    · simp
    · simp only [Bool.and_eq_true, decide_eq_true_eq] at hp hq
      exact hA.membership x hx y hy (hp.1.trans hq.1.symm) (hp.2.trans hq.2.symm)
  rw [resolveAuthContext_eq_some_iff]
  simp only [huser, horganization, hmembership]
  constructor
  · rintro ⟨hne, u, o, m, ⟨hu, hsubject⟩, huactive, ⟨ho, hid⟩, hoactive, ⟨hm, hmu, hmo⟩, hmactive,
      rfl⟩
    exact ⟨u, m, ⟨hne, hu, hsubject, huactive, hm, hmu, hmo, hmactive, o, ho, hid, hoactive⟩, rfl⟩
  · rintro ⟨u, m, h, rfl⟩
    obtain ⟨o, ho, hid, hoactive⟩ := h.organization_active
    exact ⟨h.subject_ne, u, o, m, ⟨h.mem_users, h.subject_eq⟩, h.user_active, ⟨ho, hid⟩, hoactive,
      ⟨h.mem_memberships, h.user_eq, h.organization_eq⟩, h.membership_active, rfl⟩

/-- **Which permissions he has**: those that a role of his membership grants. -/
theorem mem_permissions_iff (hA : A.UniqueKeys) {code : List Char} :
    (∃ row, A.resolveAuthContext T le subject organizationId = some row ∧
      code ∈ row.permissions) ↔ A.Grants T subject organizationId code := by
  simp only [resolveAuthContext_eq_some hA, Grants]
  constructor
  · rintro ⟨_, ⟨u, m, h, rfl⟩, hcode⟩
    refine ⟨u, m, h, ?_⟩
    simp only [contextRow, mem_arrayAgg, rolesOf, List.mem_flatMap, List.mem_filter, List.mem_map,
      Bool.and_eq_true, decide_eq_true_eq] at hcode
    obtain ⟨r, ⟨mr, ⟨hmr, hmrm, hmro⟩, hr, hrid⟩, rp, ⟨hrp, hrpid⟩, p, ⟨hp, hpid⟩, hpcode⟩ := hcode
    exact ⟨mr, hmr, hmrm, hmro, r, hr, hrid, rp, hrp, hrpid, p, hp, hpid, hpcode⟩
  · rintro ⟨u, m, h, mr, hmr, hmrm, hmro, r, hr, hrid, rp, hrp, hrpid, p, hp, hpid, hpcode⟩
    refine ⟨_, ⟨u, m, h, rfl⟩, ?_⟩
    simp only [contextRow, mem_arrayAgg, rolesOf, List.mem_flatMap, List.mem_filter, List.mem_map,
      Bool.and_eq_true, decide_eq_true_eq]
    exact ⟨r, ⟨mr, ⟨hmr, hmrm, hmro⟩, hr, hrid⟩, rp, ⟨hrp, hrpid⟩, p, ⟨hp, hpid⟩, hpcode⟩

end AuthTables

/-! ## Identities -/

variable {D : DoubleText}

/-- What the verification reads of the `Settings` (core/config.py). -/
structure AuthSettings where
  environment : List Char := "development".toList
  firebaseProjectId : Option (List Char) := none

/-- `is_development` -/
def AuthSettings.isDevelopment (T : TextCase) (settings : AuthSettings) : Bool :=
  T.lower settings.environment ∈ ["development".toList, "dev".toList, "test".toList]

/-- `AuthenticatedIdentity` (core/security.py). -/
structure AuthenticatedIdentity where
  externalSubject : List Char
  identityProvider : List Char
  displayName : List Char
  emailMasked : Option (List Char) := none
deriving DecidableEq

/-- The claims of a token of Firebase. -/
structure FirebaseClaims where
  aud : Option (List Char) := none
  uid : Option (List Char) := none
  sub : Option (List Char) := none
  email : Option (List Char) := none
  name : Option (List Char) := none

/-- `firebase_admin`. -/
structure Firebase where
  /-- the application of a project can be initialized -/
  app : List Char → Bool
  /-- `auth.verify_id_token`; a failure has the name of its class and its text -/
  verifyIdToken : List Char → Except (List Char × List Char) FirebaseClaims

/-- A text that is there and not empty. -/
def truthyText (text : Option (List Char)) : Option (List Char) := text.filter (· ≠ [])

/-- `InvalidCredentialsException(message)` -/
def invalidCredentials {α : Type} (message : List Char) : Except (Raised D) α :=
  .error (.api (invalidCredentialsException message))

/-- `MembershipRequiredException(message)` -/
def membershipRequired {α : Type} (message : List Char) : Except (Raised D) α :=
  .error (.api (membershipRequiredException message))

/-- `FirebaseIdentityVerifier()`: the project whose tokens it accepts. -/
def firebaseIdentityVerifier (T : TextCase) (U : CharClass) (settings : AuthSettings) :
    Except (Raised D) (List Char) := do
  let pid ← match settings.firebaseProjectId with
    | some pid =>
      if strip U pid ≠ [] then pure pid
      else if settings.isDevelopment T then pure "finance-intel-staging-8f2a".toList
      else .error .other
    | none =>
      if settings.isDevelopment T then pure "finance-intel-staging-8f2a".toList else .error .other
  if "travel-mapper".toList <:+: T.lower pid then
    invalidCredentials "Prohibited project ID cannot be configured.".toList
  else pure pid

/-- `FirebaseIdentityVerifier.verify_token` -/
def firebaseVerifyToken (T : TextCase) (F : Firebase) (expectedProjectId token : List Char) :
    Except (Raised D) AuthenticatedIdentity :=
  if token = [] then invalidCredentials "Bearer token required.".toList
  else if !F.app expectedProjectId then
    invalidCredentials "Firebase authentication app is not configured or initialized.".toList
  else
    match F.verifyIdToken token with
    | .error (errType, text) =>
      if "Expired".toList <:+: errType ∨ "expired".toList <:+: T.lower text then
        invalidCredentials "Firebase ID token has expired.".toList
      else if "Revoked".toList <:+: errType ∨ "revoked".toList <:+: T.lower text then
        invalidCredentials "Firebase ID token has been revoked.".toList
      else invalidCredentials ("Invalid Firebase ID token: ".toList ++ text)
    | .ok decoded =>
      if decoded.aud ≠ some expectedProjectId then
        invalidCredentials
          ("Token audience mismatch: expected '".toList ++ expectedProjectId ++ "'.".toList)
      else
        match (truthyText decoded.uid).or (truthyText decoded.sub) with
        | none => invalidCredentials "Firebase token missing UID/sub claim.".toList
        | some uid => .ok {
            externalSubject := uid
            identityProvider := "firebase".toList
            displayName := ((truthyText decoded.name).or (truthyText decoded.email)).getD
              "Firebase User".toList
            emailMasked := decoded.email }

/-- `DevelopmentIdentityVerifier.verify_token` -/
def developmentVerifyToken (T : TextCase) (settings : AuthSettings) (token : List Char) :
    Except (Raised D) AuthenticatedIdentity :=
  if !settings.isDevelopment T then .error (.api developmentAuthDisabledException)
  else if token = [] ∨ token = "invalid".toList then
    invalidCredentials "Invalid development authentication token.".toList
  else
    let subject := if "dev-token-".toList <+: token ∧ 10 < token.length then token.drop 10
      else "dev_sub_synthetic_99182".toList
    .ok {
      externalSubject := subject
      identityProvider := "development_adapter".toList
      displayName := "Dev User ".toList ++ subject
      emailMasked := some (subject ++ "@synthetic.internal".toList) }

/-! ## Headers -/

/-- What stands before the first `sep`. -/
def beforeFirst (sep : List Char) : List Char → List Char
  | [] => []
  | c :: s => if sep.isPrefixOf (c :: s) then [] else c :: beforeFirst sep s

/-- `authorization.split("Bearer ")[1].strip()`, unless it is empty. -/
def bearerToken (U : CharClass) (authorization : Option (List Char)) : Option (List Char) :=
  match authorization with
  | none => none
  | some header =>
    if "Bearer ".toList <+: header then
      truthyText (some (strip U (beforeFirst "Bearer ".toList (header.drop 7))))
    else none

/-- The value of a digit of `int(text, 16)`. -/
def hexDigitOf (U : CharClass) (c : Char) : Option ℕ := (U.digit c).or (hexValue c)

/-- The digits of `int(text, 16)`, with single underscores between them. -/
def readHexDigits (U : CharClass) : Bool → ℕ → List Char → Option ℕ
  | underscore, n, [] => if underscore then none else some n
  | underscore, n, c :: s =>
    if c = '_' then if underscore then none else readHexDigits U true n s
    else (hexDigitOf U c).bind fun d => readHexDigits U false (16 * n + d) s

/-- `int(text, 16)` -/
def intHex (U : CharClass) (text : List Char) : Option ℤ :=
  let (sign, s) := readSign ['+', '-'] (strip U text)
  -- a prefix, which an underscore may follow
  let s := match s with
    | z :: x :: '_' :: s => if z = '0' ∧ (x = 'x' ∨ x = 'X') then s else z :: x :: '_' :: s
    | z :: x :: s => if z = '0' ∧ (x = 'x' ∨ x = 'X') then s else z :: x :: s
    | s => s
  if s = [] ∨ s.head? = some '_' then none
  else (readHexDigits U false 0 s).map fun n => if sign = ['-'] then -(n : ℤ) else n

/-- `text.strip("\x7b\x7d")` -/
def stripBraces (text : List Char) : List Char :=
  ((text.dropWhile fun c => c == '\x7b' || c == '\x7d').reverse.dropWhile
    fun c => c == '\x7b' || c == '\x7d').reverse

/-- `UUID(text)`, unless it raises `ValueError`. -/
def parseUuid (U : CharClass) (text : List Char) : Option Uuid :=
  let hex := replaceAll "uuid:".toList [] (replaceAll "urn:".toList [] text)
  let hex := (stripBraces hex).filter (· ≠ '-')
  if hex.length = 32 then
    (intHex U hex).bind fun n => if 0 ≤ n ∧ n < 2 ^ 128 then some (BitVec.ofInt 128 n) else none
  else none

/-- The headers of a request. -/
structure AuthHeaders where
  authorization : Option (List Char) := none
  /-- `X-Organization-ID` -/
  xOrganizationId : Option (List Char) := none
  /-- `X-Request-ID` -/
  xRequestId : Option (List Char) := none
  /-- `X-Correlation-ID` -/
  xCorrelationId : Option (List Char) := none

/-- `ExecutionContext` (middleware/execution_context.py). -/
structure ExecutionContext where
  authenticatedUserId : Uuid
  activeOrganizationId : Uuid
  membershipId : Uuid
  roles : List (List Char)
  permissions : List (List Char)
  requestId : List Char
  correlationId : List Char
  authenticationMethod : List Char
  environment : List Char

/-- `DEV_SYNTHETIC_USER_ID` -/
def devSyntheticUserId : Uuid := 0x44444444444444444444444444444444

/-- `DEV_SYNTHETIC_MEMBERSHIP_ID` -/
def devSyntheticMembershipId : Uuid := 0x22222222222222222222222222222222

/-- The permissions of the synthetic analyst. -/
def devPermissions : List String :=
  ["documents:upload", "documents:finalize", "documents:read", "ingestion:read", "read_facts",
    "calculate_metrics", "calculations:run", "calculations:read", "calculations:reconcile",
    "comparisons:run", "comparisons:read", "evidence:read", "facts:review", "facts:verify",
    "facts:reject", "analyses:create"]

/-- What the verification of a request rests on. -/
structure AuthService where
  /-- `str.lower` -/
  text : TextCase
  /-- the characters of `str.strip` and `int` -/
  chars : CharClass
  settings : AuthSettings := {}
  firebase : Firebase
  /-- `lower` of the database -/
  sqlText : TextCase
  /-- the order of texts in the database -/
  sqlLe : List Char → List Char → Bool

namespace AuthService

/-- A token of the development adapter, in development. -/
def isDevToken (V : AuthService) (token : List Char) : Bool :=
  V.settings.isDevelopment V.text && "dev-token".toList.isPrefixOf token

/-- `resolve_auth_context_from_db`; any exception finds nothing. -/
def resolveFromDb (V : AuthService) (db : Option AuthTables) (uid : List Char) (org : Uuid) :
    Option AuthContextRow :=
  db.bind fun A => A.resolveAuthContext V.sqlText V.sqlLe uid org

/-- The identity that Firebase vouches for. -/
def firebaseIdentity (V : AuthService) (token : List Char) :
    Except (Raised D) AuthenticatedIdentity := do
  let pid ← firebaseIdentityVerifier V.text V.chars V.settings
  firebaseVerifyToken V.text V.firebase pid token

/-- The token and the organization of a request. -/
def requested (V : AuthService) (h : AuthHeaders) : Except (Raised D) (List Char × Uuid) :=
  match bearerToken V.chars h.authorization with
  | none => invalidCredentials "Bearer token required.".toList
  | some token =>
    match truthyText h.xOrganizationId with
    | none =>
      membershipRequired
        "Active organization ID header ('X-Organization-ID') is required.".toList
    | some organizationText =>
      match parseUuid V.chars organizationText with
      | none => membershipRequired "Invalid organization ID format.".toList
      | some organizationId => .ok (token, organizationId)

/-- The rights of a request with a token of the development adapter: nobody has to be a member. -/
def developmentRow (resolved : Option AuthContextRow) (requestedOrg : Uuid) : AuthContextRow :=
  resolved.getD
    ⟨devSyntheticUserId, requestedOrg, ["ANALYST".toList], devPermissions.map String.toList⟩

/-- `get_execution_context`, with the id that it draws for a request without one. -/
def getExecutionContext (V : AuthService) (db : Option AuthTables) (drawn : List Char)
    (h : AuthHeaders) : Except (Raised D) ExecutionContext := do
  let requestId := (truthyText h.xRequestId).getD drawn
  let correlationId := (truthyText h.xCorrelationId).getD requestId
  let (token, requestedOrg) ← V.requested h
  if V.isDevToken token then
    let identity ← developmentVerifyToken V.text V.settings token
    let resolved := V.resolveFromDb db identity.externalSubject requestedOrg
    let row := developmentRow resolved requestedOrg
    pure ⟨row.actorUserId, row.activeOrganizationId, devSyntheticMembershipId, row.roles,
      row.permissions, requestId, correlationId, "development_adapter".toList,
      V.settings.environment⟩
  else
    let identity ← V.firebaseIdentity token
    match V.resolveFromDb db identity.externalSubject requestedOrg with
    | none =>
      membershipRequired
        "Active organization membership is required to access target resource.".toList
    | some row =>
      pure ⟨row.actorUserId, row.activeOrganizationId, 0, row.roles, row.permissions, requestId,
        correlationId, "firebase".toList, V.settings.environment⟩

/-- `require_permission(permission_code)` -/
def requirePermission (V : AuthService) (db : Option AuthTables) (drawn : List Char)
    (permissionCode : List Char) (h : AuthHeaders) : Except (Raised D) ExecutionContext := do
  let ctx ← V.getExecutionContext db drawn h
  if permissionCode ∈ ctx.permissions then pure ctx
  else .error (.http 403 (.str ("Permission '".toList ++ permissionCode ++
    "' is required to perform this action.".toList)))

variable {V : AuthService} {db : Option AuthTables} {drawn : List Char} {h : AuthHeaders}
  {ctx : ExecutionContext}

/-- **Outside of development** a request gets a context exactly if its token is one of Firebase and
its user is found. -/
theorem getExecutionContext_eq_ok_iff (hdev : V.settings.isDevelopment V.text = false) :
    V.getExecutionContext db drawn h = (.ok ctx : Except (Raised D) _) ↔
      ∃ token org identity row, V.requested h = (.ok (token, org) : Except (Raised D) _) ∧
        V.firebaseIdentity token = (.ok identity : Except (Raised D) _) ∧
        V.resolveFromDb db identity.externalSubject org = some row ∧
        ctx = ⟨row.actorUserId, row.activeOrganizationId, 0, row.roles, row.permissions,
          (truthyText h.xRequestId).getD drawn,
          (truthyText h.xCorrelationId).getD ((truthyText h.xRequestId).getD drawn),
          "firebase".toList, V.settings.environment⟩ := by
  have hnot : ∀ token, ¬ V.isDevToken token = true := fun token => by simp [isDevToken, hdev]
  simp only [getExecutionContext, exceptBind_eq_ok, Prod.exists, if_neg (hnot _)]
  constructor
  · rintro ⟨token, org, hrequested, identity, hidentity, hok⟩
    split at hok
    next => cases hok
    next row hrow => exact ⟨token, org, identity, row, hrequested, hidentity, hrow,
      (Except.ok.inj hok).symm⟩
  · rintro ⟨token, org, identity, row, hrequested, hidentity, hrow, rfl⟩
    refine ⟨token, org, hrequested, identity, hidentity, ?_⟩
    rw [hrow]
    rfl

theorem requirePermission_eq_ok_iff {code : List Char} :
    V.requirePermission db drawn code h = (.ok ctx : Except (Raised D) _) ↔
      V.getExecutionContext db drawn h = (.ok ctx : Except (Raised D) _) ∧
        code ∈ ctx.permissions := by
  simp only [requirePermission, exceptBind_eq_ok]
  constructor
  · rintro ⟨c, hc, hok⟩
    split at hok
    next hmem =>
      obtain rfl := Except.ok.inj hok
      exact ⟨hc, hmem⟩
    next => cases hok
  · rintro ⟨hc, hmem⟩
    exact ⟨ctx, hc, by rw [if_pos hmem]; rfl⟩

/-- **Whose context it is**: outside of development that of an active member of its organization,
whom Firebase has identified. -/
theorem getExecutionContext_activeMember (hdev : V.settings.isDevelopment V.text = false)
    (hkeys : ∀ A ∈ db, A.UniqueKeys)
    (hok : V.getExecutionContext db drawn h = (.ok ctx : Except (Raised D) _)) :
    ∃ token identity A user membership,
      V.requested h = (.ok (token, ctx.activeOrganizationId) : Except (Raised D) _) ∧
      V.firebaseIdentity token = (.ok identity : Except (Raised D) _) ∧ A ∈ db ∧
      A.ActiveMember V.sqlText identity.externalSubject ctx.activeOrganizationId user membership ∧
      user.id = ctx.authenticatedUserId := by
  obtain ⟨token, org, identity, row, hrequested, hidentity, hrow, rfl⟩ :=
    (getExecutionContext_eq_ok_iff hdev).mp hok
  obtain ⟨A, hA, hresolved⟩ := Option.bind_eq_some_iff.mp hrow
  obtain ⟨user, membership, hmember, rfl⟩ :=
    (AuthTables.resolveAuthContext_eq_some (hkeys A hA)).mp hresolved
  exact ⟨token, identity, A, user, membership, hrequested, hidentity, hA, hmember, rfl⟩

/-- **Who passes.** Outside of development a request passes `require_permission` exactly if its
token is one that Firebase vouches for, its organization is one by its id, and an active membership
of the user of the token in this organization has a role with the permission. -/
theorem permission_iff (hdev : V.settings.isDevelopment V.text = false)
    (hkeys : ∀ A ∈ db, A.UniqueKeys) {code : List Char} :
    (∃ ctx, V.requirePermission db drawn code h = (.ok ctx : Except (Raised D) _)) ↔
      ∃ token org identity A, V.requested h = (.ok (token, org) : Except (Raised D) _) ∧
        V.firebaseIdentity token = (.ok identity : Except (Raised D) _) ∧ db = some A ∧
        A.Grants V.sqlText identity.externalSubject org code := by
  simp only [requirePermission_eq_ok_iff, getExecutionContext_eq_ok_iff hdev]
  constructor
  · rintro ⟨_, ⟨token, org, identity, row, hrequested, hidentity, hrow, rfl⟩, hmem⟩
    obtain ⟨A, hA, hresolved⟩ := Option.bind_eq_some_iff.mp hrow
    exact ⟨token, org, identity, A, hrequested, hidentity, hA,
      (AuthTables.mem_permissions_iff (hkeys A hA)).mp ⟨row, hresolved, hmem⟩⟩
  · rintro ⟨token, org, identity, A, hrequested, hidentity, rfl, hgrants⟩
    have hfound : ∃ row, A.resolveAuthContext V.sqlText V.sqlLe identity.externalSubject org =
        some row ∧ code ∈ row.permissions :=
      (AuthTables.mem_permissions_iff (hkeys A rfl)).mpr hgrants
    obtain ⟨row, hresolved, hmem⟩ := hfound
    exact ⟨_, ⟨token, org, identity, row, hrequested, hidentity, hresolved, rfl⟩, hmem⟩

/-- Firebase, with one token of a user `u` for the project `p`. -/
def oneToken : Firebase where
  app _ := true
  verifyIdToken token :=
    if token = ['t'] then .ok { aud := some ['p'], uid := some ['u'] }
    else .error ("InvalidIdTokenError".toList, [])

/-- The service in production. -/
def production : AuthService where
  text := .ascii
  chars := .ascii
  settings := { environment := "production".toList, firebaseProjectId := some ['p'] }
  firebase := oneToken
  sqlText := .ascii
  sqlLe _ _ := true

/-- The user is an analyst of an organization, and an analyst reads. -/
def oneAnalyst : AuthTables where
  users := [⟨1, ['u'], "firebase".toList, ['U'], "ACTIVE".toList⟩]
  organizations := [⟨5, ['O'], ['o'], "ACTIVE".toList⟩]
  memberships := [⟨2, 1, 5, "ACTIVE".toList⟩]
  membershipRoles := [⟨3, 5, 2, 6⟩]
  roles := [(6, "ANALYST".toList)]
  rolePermissions := [(6, 7)]
  permissions := [(7, "documents:read".toList)]

theorem oneAnalyst_uniqueKeys : oneAnalyst.UniqueKeys := by
  constructor <;> simp [oneAnalyst]

/-- A request of the user. -/
def analystHeaders : AuthHeaders where
  authorization := some "Bearer t".toList
  xOrganizationId := some "00000000-0000-0000-0000-000000000005".toList

theorem requested_analystHeaders :
    production.requested analystHeaders = (.ok (['t'], 5) : Except (Raised .integral) _) := by
  have hid : parseUuid production.chars "00000000-0000-0000-0000-000000000005".toList = some 5 := by
    decide +kernel
  have htoken : bearerToken production.chars analystHeaders.authorization = some ['t'] := by
    decide +kernel
  have htext : truthyText analystHeaders.xOrganizationId =
      some "00000000-0000-0000-0000-000000000005".toList := by decide +kernel
  simp only [requested, htoken, htext, hid]

theorem oneAnalyst_activeMember : oneAnalyst.ActiveMember .ascii ['u'] 5
    ⟨1, ['u'], "firebase".toList, ['U'], "ACTIVE".toList⟩ ⟨2, 1, 5, "ACTIVE".toList⟩ := by
  have hactive : isActive .ascii "ACTIVE".toList = true := by decide
  exact ⟨by decide, List.mem_cons_self, rfl, hactive, List.mem_cons_self, rfl, rfl, hactive, _,
    List.mem_cons_self, rfl, hactive⟩

theorem getExecutionContext_analyst : ∃ ctx,
    production.getExecutionContext (some oneAnalyst) [] analystHeaders =
      (.ok ctx : Except (Raised .integral) _) ∧ ctx.activeOrganizationId = 5 := by
  have hrow : oneAnalyst.resolveAuthContext production.sqlText production.sqlLe ['u'] 5 = some _ :=
    (AuthTables.resolveAuthContext_eq_some oneAnalyst_uniqueKeys).mpr
      ⟨_, _, oneAnalyst_activeMember, rfl⟩
  exact ⟨_, (getExecutionContext_eq_ok_iff (by decide)).mpr ⟨['t'], 5,
    ⟨['u'], "firebase".toList, "Firebase User".toList, none⟩, _, requested_analystHeaders, rfl,
    hrow, rfl⟩, rfl⟩

theorem permission_iff_analyst : ∃ ctx,
    production.requirePermission (some oneAnalyst) [] "documents:read".toList analystHeaders =
      (.ok ctx : Except (Raised .integral) _) := by
  refine (permission_iff (by decide) fun A hA => ?_).mpr
    ⟨['t'], 5, ⟨['u'], "firebase".toList, "Firebase User".toList, none⟩, oneAnalyst,
      requested_analystHeaders, rfl, rfl, ?_⟩
  · obtain rfl := Option.some.inj hA
    exact oneAnalyst_uniqueKeys
  · exact ⟨_, _, oneAnalyst_activeMember, _, List.mem_cons_self, rfl, rfl, _, List.mem_cons_self,
      rfl, _, List.mem_cons_self, rfl, _, List.mem_cons_self, rfl, rfl⟩

end AuthService

end FinanceIntelligence
