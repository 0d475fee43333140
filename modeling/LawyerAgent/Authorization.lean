import LawyerAgent.IdentityTables

/-!
# Policy engine

A decision runs through the reasons for a denial in a fixed order and allows
what none of them denies. Sets are read through membership only. Values that
the source checks for their type are typed here.
-/

set_option autoImplicit false

namespace LawyerAgent.Authorization
open Common Tenancy IdentityTables

def policyVersion : String := "identity-authz-v1"

inductive Action where
  | tenantRead
  | tenantUpdate
  | departmentRead
  | departmentManage
  | membershipRead
  | membershipInvite
  | membershipUpdate
  | membershipRevoke
  | roleRead
  | roleAssign
  | externalServiceEnable
  | tenantApplicationRead
  | tenantApplicationReview
  | platformAdminBootstrap
deriving DecidableEq, Repr

def Action.value : Action → String
  | .tenantRead => "tenant.read"
  | .tenantUpdate => "tenant.update"
  | .departmentRead => "department.read"
  | .departmentManage => "department.manage"
  | .membershipRead => "membership.read"
  | .membershipInvite => "membership.invite"
  | .membershipUpdate => "membership.update"
  | .membershipRevoke => "membership.revoke"
  | .roleRead => "role.read"
  | .roleAssign => "role.assign"
  | .externalServiceEnable => "external_service.enable"
  | .tenantApplicationRead => "tenant_application.read"
  | .tenantApplicationReview => "tenant_application.review"
  | .platformAdminBootstrap => "platform_admin.bootstrap"

def actions : List Action :=
  [.tenantRead,.tenantUpdate,.departmentRead,.departmentManage,.membershipRead,
   .membershipInvite,.membershipUpdate,.membershipRevoke,.roleRead,.roleAssign,
   .externalServiceEnable,.tenantApplicationRead,.tenantApplicationReview,
   .platformAdminBootstrap]

inductive PrincipalAudience where
  | tenant
  | platform
deriving DecidableEq, Repr

inductive ResourceAccessPath where
  | department
  | owner
  | shared
  | matterTeam
  | classPath
  | clientDelegation
deriving DecidableEq, Repr

inductive ResourceState where
  | active
  | draft
  | pendingReview
  | approved
  | disabled
  | deleted
  | revoked
  | closed
deriving DecidableEq, Repr

inductive ConfidentialityLevel where
  | publicLevel
  | internal
  | confidential
  | restricted
deriving DecidableEq, Repr

structure AuthorizationScope where
  departmentIds : List UUID7 := []
  allowTenantWide : Bool := false
  allowOwned : Bool := false
  allowShared : Bool := false
  allowMatterTeam : Bool := false
  allowClass : Bool := false
  allowClientDelegation : Bool := false
  maximumConfidentiality : ConfidentialityLevel := .restricted
  unrecognizedScopeCodes : List String := []

structure Principal where
  userId : UUID7
  sessionId : UUID7
  audience : PrincipalAudience
  tenantId : Option UUID7
  membershipId : Option UUID7
  userStatus : UserStatus
  sessionValid : Bool
  authVersion : ℕ
  sessionAuthVersion : ℕ
  permissions : List String
  roleCodes : List String

structure TenantContext where
  tenantId : UUID7
  membershipId : Option UUID7
  membershipUserId : Option UUID7
  departmentId : Option UUID7
  tenantStatus : TenantStatus
  membershipStatus : Option MembershipStatus
  validFrom : Option Time
  validUntil : Option Time
  authzVersion : Option ℕ
  sessionAuthzVersion : Option ℕ
  scope : AuthorizationScope

structure ResourceAttributes where
  tenantId : UUID7
  state : ResourceState
  accessPaths : List ResourceAccessPath := []
  departmentId : Option UUID7 := none
  ownerUserId : Option UUID7 := none
  sharedWithMembershipIds : List UUID7 := []
  matterTeamMembershipIds : List UUID7 := []
  classMembershipIds : List UUID7 := []
  delegatedClientMembershipIds : List UUID7 := []
  confidentiality : ConfidentialityLevel := .internal
  approvalStatus : Option String := none
  unrecognizedFields : List String := []

structure AuthorizationDecision where
  allowed : Bool
  reasonCode : String
  policyVersion : String
  auditRequired : Bool
deriving DecidableEq

def knownPermissionCodes : List String := actions.map Action.value

def knownRoleCodes : List String :=
  ["tenant_owner","tenant_admin","department_admin","lawyer_or_legal","assistant","teacher",
   "student","external_client","super_admin","security_auditor","operations_support",
   "content_operator"]

def platformActions : List Action :=
  [.tenantApplicationRead,.tenantApplicationReview,.platformAdminBootstrap]

def auditedActions : List Action :=
  [.tenantUpdate,.departmentManage,.membershipInvite,.membershipUpdate,.membershipRevoke,
   .roleAssign,.externalServiceEnable,.tenantApplicationRead,.tenantApplicationReview,
   .platformAdminBootstrap]

def Action.auditRequired (action : Action) : Bool := auditedActions.contains action

def terminalResourceStates : List ResourceState := [.disabled,.deleted,.revoked,.closed]

def confidentialityRank : ConfidentialityLevel → ℕ
  | .publicLevel => 0
  | .internal => 1
  | .confidential => 2
  | .restricted => 3

def approvalStatuses : List String :=
  ["draft","pending_review","changes_requested","approved","rejected"]

def identityReason (p : Principal) : Option String :=
  if p.userStatus ≠ .active then some "identity_invalid" else none

def positive (version : Option ℕ) : Bool := version.any (decide <| 1 ≤ ·)

def sessionReason (p : Principal) (c : TenantContext) : Option String :=
  if !p.sessionValid || p.authVersion = 0 || p.sessionAuthVersion = 0 ||
      p.authVersion ≠ p.sessionAuthVersion then some "session_invalid"
  else if p.audience = .tenant ∧ (!positive c.authzVersion || !positive c.sessionAuthzVersion ||
      c.authzVersion ≠ c.sessionAuthzVersion) then some "session_invalid"
  else none

def tenantMatchReason (p : Principal) (c : TenantContext) (action : Action)
    (r : ResourceAttributes) : Option String :=
  if r.tenantId ≠ c.tenantId then some "tenant_mismatch"
  else
    match p.audience with
    | .tenant =>
      if action ∈ platformActions ∨ p.tenantId ≠ some c.tenantId ∨ p.membershipId.isNone ∨
          p.membershipId ≠ c.membershipId ∨ c.membershipUserId ≠ some p.userId then
        some "tenant_mismatch"
      else none
    | .platform =>
      if action ∉ platformActions ∨ p.tenantId.isSome ∨ p.membershipId.isSome ∨
          c.membershipId.isSome ∨ c.membershipUserId.isSome ∨ c.departmentId.isSome ∨
          c.membershipStatus.isSome ∨ c.validFrom.isSome ∨ c.validUntil.isSome ∨
          c.authzVersion.isSome ∨ c.sessionAuthzVersion.isSome then
        some "tenant_mismatch"
      else none

def tenantStatusReason (c : TenantContext) (action : Action) : Option String :=
  match c.tenantStatus with
  | .active => none
  | .pendingVerification =>
    if action = .externalServiceEnable then some "tenant_status_denied" else none
  | .suspended => some "tenant_status_denied"
  | .closed => some "tenant_status_denied"

/-- A membership without a timestamp raises, which the engine turns into a denial. -/
def membershipReason (p : Principal) (c : TenantContext) (now : Time) : Option String :=
  if p.audience = .platform then none
  else if c.membershipStatus ≠ some .active then some "membership_inactive"
  else
    match c.validFrom with
    | none => some "policy_error"
    | some validFrom =>
      if now < validFrom then some "membership_not_yet_valid"
      else if c.validUntil.any (decide <| · ≤ now) then some "membership_expired"
      else none

def permissionReason (p : Principal) (action : Action) : Option String :=
  if p.permissions.any (!knownPermissionCodes.contains ·) then some "unknown_permission"
  else if p.roleCodes.any (!knownRoleCodes.contains ·) then some "unknown_role"
  else if !p.permissions.contains action.value then some "permission_denied"
  else none

def validResourceAttributes (r : ResourceAttributes) : Bool :=
  r.approvalStatus.all (approvalStatuses.contains ·)

def pathOpen (p : Principal) (c : TenantContext) (r : ResourceAttributes) :
    ResourceAccessPath → Bool
  | .department => r.departmentId.any (c.scope.departmentIds.contains ·)
  | .owner => c.scope.allowOwned && r.ownerUserId == some p.userId
  | .shared => c.scope.allowShared && c.membershipId.any (r.sharedWithMembershipIds.contains ·)
  | .matterTeam =>
    c.scope.allowMatterTeam && c.membershipId.any (r.matterTeamMembershipIds.contains ·)
  | .classPath => c.scope.allowClass && c.membershipId.any (r.classMembershipIds.contains ·)
  | .clientDelegation =>
    c.scope.allowClientDelegation &&
      c.membershipId.any (r.delegatedClientMembershipIds.contains ·)

def scopeReason (p : Principal) (c : TenantContext) (r : ResourceAttributes) : Option String :=
  if c.scope.unrecognizedScopeCodes ≠ [] then some "unknown_scope"
  else if r.unrecognizedFields ≠ [] then some "unknown_resource_attributes"
  else if !validResourceAttributes r then some "unknown_resource_attributes"
  else if confidentialityRank c.scope.maximumConfidentiality <
      confidentialityRank r.confidentiality then some "resource_scope_denied"
  else if p.audience = .platform then none
  else if c.scope.allowTenantWide then none
  else if r.accessPaths.any (pathOpen p c r) then none
  else some "resource_scope_denied"

def resourceStateReason (r : ResourceAttributes) : Option String :=
  if r.state ∈ terminalResourceStates then some "resource_state_denied" else none

def denialReason (p : Principal) (c : TenantContext) (action : Action) (r : ResourceAttributes)
    (now : Time) : Option String :=
  identityReason p <|> sessionReason p c <|> tenantMatchReason p c action r <|>
    tenantStatusReason c action <|> membershipReason p c now <|> permissionReason p action <|>
    scopeReason p c r <|> resourceStateReason r

def deny (reasonCode : String) : AuthorizationDecision := ⟨false,reasonCode,policyVersion,true⟩

def PolicyEngine.decide (p : Principal) (c : TenantContext) (action : Action)
    (r : ResourceAttributes) (now : Time) : AuthorizationDecision :=
  match denialReason p c action r now with
  | some reason => deny reason
  | none => ⟨true,"allowed",policyVersion,action.auditRequired⟩

structure OtherwiseAllowed (p : Principal) (c : TenantContext) (action : Action)
    (r : ResourceAttributes) (now : Time) : Prop where
  identity : identityReason p = none
  session : sessionReason p c = none
  tenant : tenantMatchReason p c action r = none
  status : tenantStatusReason c action = none
  membership : membershipReason p c now = none
  scope : scopeReason p c r = none
  state : resourceStateReason r = none

theorem decide_allowed {p : Principal} {c : TenantContext} {action : Action}
    {r : ResourceAttributes} {now : Time} :
    (PolicyEngine.decide p c action r now).allowed = true ↔
      OtherwiseAllowed p c action r now ∧ permissionReason p action = none := by
  have hnone : (PolicyEngine.decide p c action r now).allowed = true ↔
      denialReason p c action r now = none := by
    unfold PolicyEngine.decide
    cases denialReason p c action r now <;> simp [deny]
  rw [hnone]
  simp only [denialReason,Option.orElse_eq_none]
  constructor
  · rintro ⟨hi,hs,ht,hts,hm,hp,hsc,hst⟩
    exact ⟨⟨hi,hs,ht,hts,hm,hsc,hst⟩,hp⟩
  · rintro ⟨⟨hi,hs,ht,hts,hm,hsc,hst⟩,hp⟩
    exact ⟨hi,hs,ht,hts,hm,hp,hsc,hst⟩

theorem permissionReason_none {p : Principal} {action : Action} :
    permissionReason p action = none ↔
      (∀ code ∈ p.permissions, code ∈ knownPermissionCodes) ∧
      (∀ code ∈ p.roleCodes, code ∈ knownRoleCodes) ∧ action.value ∈ p.permissions := by
  unfold permissionReason
  split
  · rename_i h
    simp only [reduceCtorEq,false_iff]
    rintro ⟨hall,-⟩
    obtain ⟨code,hcode,hunknown⟩ := List.any_eq_true.mp h
    simp [hall code hcode] at hunknown
  rename_i h
  have hpermissions : ∀ code ∈ p.permissions, code ∈ knownPermissionCodes := by simpa using h
  split
  · rename_i hrole
    simp only [reduceCtorEq,false_iff]
    rintro ⟨-,hall,-⟩
    obtain ⟨code,hcode,hunknown⟩ := List.any_eq_true.mp hrole
    simp [hall code hcode] at hunknown
  rename_i hrole
  have hroles : ∀ code ∈ p.roleCodes, code ∈ knownRoleCodes := by simpa using hrole
  rw [and_iff_right hpermissions,and_iff_right hroles]
  simp

end LawyerAgent.Authorization
