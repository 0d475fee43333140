import LawyerAgent.AIJobOperations
import LawyerAgent.IdentityTables

/-!
# Authority of a job

What the database says about the submitter of a job when its message arrives,
and the policy that compares it with the durable grant. The scope is resolved
again from the live roles.
-/

set_option autoImplicit false

namespace LawyerAgent.AIJobAuthority
open Relational Common AIJobDomain AIJobTables
open AIJobRepository Tenancy IdentityTables

def jobScopeByRole : List (String × JobAuthorizationScope) :=
  [("tenant_owner",⟨true,true,true⟩),
   ("tenant_admin",⟨true,true,true⟩),
   ("department_admin",⟨true,true,false⟩),
   ("lawyer_or_legal",⟨true,true,false⟩),
   ("assistant",⟨true,true,false⟩),
   ("teacher",⟨true,true,false⟩)]

def roleScope (role : String) : Option JobAuthorizationScope := jobScopeByRole.lookup role

def scopeFromCode : JobScopeCode → JobAuthorizationScope
  | .tenantWide => ⟨true,true,true⟩
  | .ownerShared => ⟨true,true,false⟩

def resolveScope (roleCodes : List String) :
    Except String (JobAuthorizationScope × JobScopeCode × Bool) :=
  let knownScopes := roleCodes.filterMap roleScope
  let unknownOrMixed := roleCodes.isEmpty || roleCodes.any fun role => (roleScope role).isNone
  if knownScopes.isEmpty then
    .ok (⟨false,false,false⟩,.ownerShared,unknownOrMixed)
  else do
    let resolved : JobAuthorizationScope := {
      owner := knownScopes.any fun scope => scope.owner
      shared := knownScopes.any fun scope => scope.shared
      tenantWide := knownScopes.any fun scope => scope.tenantWide}
    let code ← resolved.scopeCode
    .ok (resolved,code,unknownOrMixed)

structure JobAuthoritySnapshot where
  job : AIJob
  grant : JobExecutionGrant
  userActive : Bool
  tenantActive : Bool
  membership : Membership
  roleCodes : List String
  permissionCodes : List String
  authVersion : ℕ
  authzVersion : ℕ
  resolvedScope : JobAuthorizationScope
  resolvedScopeCode : JobScopeCode
  grantedScope : JobAuthorizationScope
  unknownOrMixedRoleCodes : Bool

def JobAuthoritySnapshot.membershipActiveAt (s : JobAuthoritySnapshot) (now : Time) : Bool :=
  s.membership.value.status == .active &&
  inForce s.membership.value.validFrom s.membership.value.validUntil now

structure JobAuthorizationDecision where
  allowed : Bool
  reasonCode : String
deriving DecidableEq

def grantChecks (s : JobAuthoritySnapshot) (now : Time) : List (Bool × String) :=
  let job := s.job.value
  let grant := s.grant.value
  [(job.tenantId = grant.tenantId,"grant_tenant_mismatch"),
   (job.id = grant.jobId,"grant_job_mismatch"),
   (job.createdByUserId = grant.userId,"grant_owner_mismatch"),
   (job.createdByMembershipId = grant.membershipId,"grant_membership_mismatch"),
   (now < job.expiresAt,"job_expired"),
   (grant.revokedAt.isNone,"grant_revoked"),
   (s.userActive,"user_inactive"),
   (s.tenantActive,"tenant_inactive"),
   (s.membershipActiveAt now,"membership_inactive"),
   (s.membership.value.userId = grant.userId,"membership_user_mismatch"),
   (s.membership.value.tenantId = grant.tenantId,"membership_tenant_mismatch"),
   (grant.authVersionAtSubmit = s.authVersion,"auth_version_changed"),
   (grant.authzVersionAtSubmit = s.authzVersion,"authz_version_changed"),
   (grant.permissionCode = .create,"grant_permission_invalid"),
   (grant.policyVersion = jobPolicyVersion,"grant_policy_version_mismatch"),
   (grant.jobScopeManifestVersion = jobScopeManifestVersion,"grant_manifest_version_mismatch"),
   (grant.jobScopeCode = s.resolvedScopeCode,"grant_scope_code_mismatch"),
   (AIJobPermission.create.value ∈ s.permissionCodes,"permission_denied"),
   (!s.unknownOrMixedRoleCodes,"unknown_role"),
   (s.resolvedScope = s.grantedScope,"scope_mismatch")]

def authorize (s : JobAuthoritySnapshot) (now : Time) : JobAuthorizationDecision :=
  match firstError (grantChecks s now) with
  | some reasonCode => ⟨false,reasonCode⟩
  | none => ⟨true,"allowed"⟩

def grant (model : AIJobExecutionGrantModel) : Except String JobExecutionGrant :=
  postInit jobExecutionGrantChecks model.toJobExecutionGrantFields

def membership (model : TenantMembershipModel) : Except String Membership :=
  postInit membershipChecks model.toMembershipFields

def isGrant (tenantId jobId : UUID7) (g : AIJobExecutionGrantModel) : Bool :=
  g.tenantId == tenantId && g.jobId == jobId

def snapshotOf (identity : Identity) (tenantId : UUID7) (jobModel : AIJobModel)
    (grantModel : AIJobExecutionGrantModel) (user : UserModel) (tenant : TenantModel)
    (membershipModel : TenantMembershipModel) : Except String JobAuthoritySnapshot := do
  let roleCodes := roleCodes tenantId grantModel.membershipId identity
  let permissionCodes := permissionCodes tenantId grantModel.membershipId identity
  let (resolvedScope,resolvedScopeCode,unknownOrMixed) ← resolveScope roleCodes
  let job ← job jobModel
  let grant ← grant grantModel
  let membership ← membership membershipModel
  .ok {
    job := job
    grant := grant
    userActive := user.status == .active
    tenantActive := tenant.status == .active
    membership := membership
    roleCodes := roleCodes
    permissionCodes := permissionCodes
    authVersion := user.authVersion
    authzVersion := membershipModel.authzVersion
    resolvedScope := resolvedScope
    resolvedScopeCode := resolvedScopeCode
    grantedScope := scopeFromCode grantModel.jobScopeCode
    unknownOrMixedRoleCodes := unknownOrMixed}

/-- The identity tables are read without a lock, so their content is an argument. -/
def load (identity : Identity) (tenantId jobId : UUID7) : StoreTx JobAuthoritySnapshot := do
  let jobModel ← read fun s => selectRow (isJob tenantId jobId) s.jobs
  let jobModel ← orFail (.jobAuthorityUnavailable "job_unavailable") jobModel
  let grantModel ← read fun s => selectRow (isGrant tenantId jobId) s.grants
  let grantModel ← orFail (.jobAuthorityUnavailable "grant_unavailable") grantModel
  let user ← orFail (.jobAuthorityUnavailable "authority_unavailable")
    (selectRow (isUser grantModel.userId) identity.users)
  let tenant ← orFail (.jobAuthorityUnavailable "authority_unavailable")
    (selectRow (isTenant tenantId) identity.tenants)
  let membershipModel ← orFail (.jobAuthorityUnavailable "authority_unavailable")
    (selectRow (isMembership tenantId grantModel.membershipId) identity.memberships)
  ofExcept .valueError (snapshotOf identity tenantId jobModel grantModel user tenant
    membershipModel)

theorem authorize_allowed (s : JobAuthoritySnapshot) (now : Time) :
    (authorize s now).allowed = true ↔ ∀ c ∈ grantChecks s now, c.1 = true := by
  unfold authorize
  cases h : firstError (grantChecks s now) with
  | some reasonCode =>
    have hmem := firstError_some h
    simp only [Bool.false_eq_true,false_iff]
    exact fun hall => Bool.false_ne_true (hall _ hmem)
  | none => exact iff_of_true rfl fun c hc => firstError_none h hc

theorem snapshotOf_ok {identity : Identity} {tenantId : UUID7} {j : AIJobModel}
    {g : AIJobExecutionGrantModel} {user : UserModel} {tenant : TenantModel}
    {m : TenantMembershipModel} {snapshot : JobAuthoritySnapshot}
    (h : snapshotOf identity tenantId j g user tenant m = .ok snapshot) :
    ∃ scope code unknown checkedJob checkedGrant checkedMembership,
      resolveScope (roleCodes tenantId g.membershipId identity) = .ok (scope,code,unknown) ∧
      job j = .ok checkedJob ∧ grant g = .ok checkedGrant ∧
      membership m = .ok checkedMembership ∧
      snapshot = {
        job := checkedJob
        grant := checkedGrant
        userActive := user.status == .active
        tenantActive := tenant.status == .active
        membership := checkedMembership
        roleCodes := roleCodes tenantId g.membershipId identity
        permissionCodes := permissionCodes tenantId g.membershipId identity
        authVersion := user.authVersion
        authzVersion := m.authzVersion
        resolvedScope := scope
        resolvedScopeCode := code
        grantedScope := scopeFromCode g.jobScopeCode
        unknownOrMixedRoleCodes := unknown} := by
  simp only [snapshotOf,bind,Except.bind] at h
  split at h
  · cases h
  rename_i resolved hresolved
  obtain ⟨scope,code,unknown⟩ := resolved
  split at h
  · cases h
  rename_i checkedJob hjob
  split at h
  · cases h
  rename_i checkedGrant hgrant
  split at h
  · cases h
  rename_i checkedMembership hmembership
  cases h
  exact ⟨scope,code,unknown,checkedJob,checkedGrant,checkedMembership,hresolved,hjob,hgrant,
    hmembership,rfl⟩

structure Loaded (identity : Identity) (tenantId jobId : UUID7) (s : Store) (j : AIJobModel)
    (g : AIJobExecutionGrantModel) (user : UserModel) (tenant : TenantModel)
    (m : TenantMembershipModel) : Prop where
  job : selectRow (isJob tenantId jobId) s.jobs = some j
  grant : selectRow (isGrant tenantId jobId) s.grants = some g
  user : selectRow (isUser g.userId) identity.users = some user
  tenant : selectRow (isTenant tenantId) identity.tenants = some tenant
  membership : selectRow (isMembership tenantId g.membershipId) identity.memberships = some m

theorem load_ok {identity : Identity} {tenantId jobId : UUID7} {s s' : Store}
    {snapshot : JobAuthoritySnapshot} :
    load identity tenantId jobId s = .ok (snapshot,s') ↔ s' = s ∧
      ∃ j g user tenant m, Loaded identity tenantId jobId s j g user tenant m ∧
        snapshotOf identity tenantId j g user tenant m = .ok snapshot := by
  simp only [load,bind_ok,read_ok,orFail_ok,ofExcept_ok]
  constructor
  · rintro ⟨_,_,⟨rfl,rfl⟩,j,_,⟨hj,rfl⟩,_,_,⟨rfl,rfl⟩,g,_,⟨hg,rfl⟩,user,_,⟨hu,rfl⟩,
      tenant,_,⟨ht,rfl⟩,m,_,⟨hm,rfl⟩,hs,rfl⟩
    exact ⟨rfl,j,g,user,tenant,m,⟨hj,hg,hu,ht,hm⟩,hs⟩
  · rintro ⟨rfl,j,g,user,tenant,m,h,hs⟩
    exact ⟨_,_,⟨rfl,rfl⟩,j,_,⟨h.job,rfl⟩,_,_,⟨rfl,rfl⟩,g,_,⟨h.grant,rfl⟩,user,_,
      ⟨h.user,rfl⟩,tenant,_,⟨h.tenant,rfl⟩,m,_,⟨h.membership,rfl⟩,hs,rfl⟩

/-- The roles whose live scope is the one every submitted grant records. -/
def ownerSharedRoles : List String :=
  ["department_admin","lawyer_or_legal","assistant","teacher"]

variable {scope : JobAuthorizationScope} {roleCodes : List String}

theorem roleScope_mem {role : String} (h : roleScope role = some scope) :
    (role,scope) ∈ jobScopeByRole := by
  obtain ⟨before,rest,hsplit,-⟩ := List.lookup_eq_some_iff.mp h
  simp [hsplit]

theorem roleScope_grants {role : String} (h : roleScope role = some scope) :
    scope.owner = true ∧ scope.shared = true := by
  have hall : ∀ p ∈ jobScopeByRole, p.2.owner = true ∧ p.2.shared = true := by decide
  exact hall _ (roleScope_mem h)

theorem roleScope_ownerShared (role : String) :
    role ∈ ownerSharedRoles ↔ roleScope role = some (scopeFromCode .ownerShared) := by
  constructor
  · intro h
    have hall : ∀ role ∈ ownerSharedRoles,
        roleScope role = some (scopeFromCode .ownerShared) := by decide
    exact hall role h
  · intro h
    have hall : ∀ p ∈ jobScopeByRole, p.2 = scopeFromCode .ownerShared →
        p.1 ∈ ownerSharedRoles := by decide
    exact hall _ (roleScope_mem h) rfl

theorem resolveScope_known (h : roleCodes.filterMap roleScope ≠ []) :
    resolveScope roleCodes = .ok
      (scopeFromCode (if (roleCodes.filterMap roleScope).any (fun s => s.tenantWide) then
          .tenantWide else .ownerShared),
        if (roleCodes.filterMap roleScope).any (fun s => s.tenantWide) then .tenantWide
          else .ownerShared,
        roleCodes.any fun role => (roleScope role).isNone) := by
  obtain ⟨scope,hscope⟩ := List.exists_mem_of_ne_nil _ h
  obtain ⟨role,hrole,hrs⟩ := List.mem_filterMap.mp hscope
  obtain ⟨howner,hshared⟩ := roleScope_grants hrs
  have ho : (roleCodes.filterMap roleScope).any (fun s => s.owner) = true :=
    List.any_eq_true.mpr ⟨scope,hscope,howner⟩
  have hs : (roleCodes.filterMap roleScope).any (fun s => s.shared) = true :=
    List.any_eq_true.mpr ⟨scope,hscope,hshared⟩
  have hne : roleCodes.isEmpty = false := by
    cases roleCodes with
    | nil => cases hrole
    | cons role roles => rfl
  unfold resolveScope
  rw [if_neg (by simpa using h)]
  simp only [ho,hs,hne,Bool.false_or]
  cases (roleCodes.filterMap roleScope).any fun s => s.tenantWide with
  | true => rfl
  | false => rfl

theorem resolveScope_unknown (h : roleCodes.filterMap roleScope = []) :
    resolveScope roleCodes = .ok (⟨false,false,false⟩,.ownerShared,true) := by
  unfold resolveScope
  rw [if_pos (by simp [h])]
  cases roleCodes with
  | nil => rfl
  | cons role roles =>
    have hnone := List.filterMap_eq_nil_iff.mp h role (by simp)
    simp [hnone]

/-- The live scope agrees with an owner-and-shared grant exactly when there is
a role and every role has that scope. -/
theorem resolveScope_ownerShared {code : JobScopeCode} {unknown : Bool}
    (h : resolveScope roleCodes = .ok (scope,code,unknown)) :
    (code = .ownerShared ∧ unknown = false ∧ scope = scopeFromCode .ownerShared) ↔
      roleCodes ≠ [] ∧ ∀ role ∈ roleCodes, role ∈ ownerSharedRoles := by
  by_cases hknown : roleCodes.filterMap roleScope = []
  · rw [resolveScope_unknown hknown] at h
    simp only [Except.ok.injEq,Prod.mk.injEq] at h
    obtain ⟨rfl,rfl,rfl⟩ := h
    constructor
    · rintro ⟨-,hfalse,-⟩
      cases hfalse
    · rintro ⟨hne,hall⟩
      obtain ⟨role,hrole⟩ := List.exists_mem_of_ne_nil _ hne
      have hsome := (roleScope_ownerShared role).mp (hall role hrole)
      rw [List.filterMap_eq_nil_iff.mp hknown role hrole] at hsome
      cases hsome
  · rw [resolveScope_known hknown] at h
    simp only [Except.ok.injEq,Prod.mk.injEq] at h
    obtain ⟨rfl,rfl,rfl⟩ := h
    constructor
    · rintro ⟨hcode,hun,-⟩
      refine ⟨fun hnil => hknown (by rw [hnil]; rfl),fun role hrole => ?_⟩
      rw [roleScope_ownerShared]
      cases hrs : roleScope role with
      | none =>
        have hnone := List.any_eq_false.mp hun role hrole
        simp [hrs] at hnone
      | some s =>
        have hmem : s ∈ roleCodes.filterMap roleScope := List.mem_filterMap.mpr ⟨role,hrole,hrs⟩
        obtain ⟨howner,hshared⟩ := roleScope_grants hrs
        have hwide : s.tenantWide = false := by
          by_contra hw
          rw [if_pos (List.any_eq_true.mpr ⟨s,hmem,by simpa using hw⟩)] at hcode
          cases hcode
        obtain ⟨owner,shared,wide⟩ := s
        simp only at howner hshared hwide
        rw [howner,hshared,hwide]
        rfl
    · rintro ⟨-,hall⟩
      have hwide : (roleCodes.filterMap roleScope).any (fun s => s.tenantWide) = false := by
        refine List.any_eq_false.mpr fun s hs => ?_
        obtain ⟨role,hrole,hrs⟩ := List.mem_filterMap.mp hs
        rw [(roleScope_ownerShared role).mp (hall role hrole)] at hrs
        cases hrs
        exact Bool.false_ne_true
      refine ⟨by simp [hwide],List.any_eq_false.mpr fun role hrole => ?_,by simp [hwide]⟩
      simp [(roleScope_ownerShared role).mp (hall role hrole)]

end LawyerAgent.AIJobAuthority
