import LawyerAgent.MembershipMutation
import LawyerAgent.PermissionRolloutSteps

/-!
# Tenant applications

`TenantService.create_application`: the tenant, the clones of the role
templates, the applicant's membership and its assignment to the owner role are
stored with the completed idempotency record.
-/

set_option autoImplicit false

namespace LawyerAgent.TenantApplications
open Relational Common Tenancy IdentityTables
open PermissionRollout RoleTemplates PermissionRolloutSteps
open Idempotency IdempotencyService TenantWorkflowTables
open TenantAuthorization hiding membershipsOf

structure NormalizedTenantName where
  displayValue : String
  normalizedValue : String

/-- One call, its name normalized and its identifiers drawn. -/
structure CreateApplicationCall where
  service : Checked idempotencyServiceChecks
  actorUserId : UUID7
  name : NormalizedTenantName
  tenantType : TenantType
  prepared : PreparedIdempotencyRequest
  recordId : UUID7
  tenantId : UUID7
  membershipId : UUID7
  newRoleId : String → UUID7
  now : Time
  currentTimestamp : Time

structure TenantApplicationResult where
  tenant : TenantModel
  ownerMembership : Membership
  replayed : Bool

def lockActiveUser (userId : UUID7) (d : Identity) : Bool :=
  (selectRow (fun u => isUser userId u && u.status == .active) d.users).isSome

def userScope (userId : UUID7) : IdempotencyScope := ⟨⟨.user,userId,none⟩,rfl⟩

def applicationRequest (q : CreateApplicationCall) : ReserveRequest where
  service := q.service
  scope := userScope q.actorUserId
  operation := "tenant.create"
  prepared := q.prepared
  newId := q.recordId
  now := q.now
  currentTimestamp := q.currentTimestamp

def ownerForApplication (tenantId userId : UUID7) (m : TenantMembershipModel) : Bool :=
  m.tenantId == tenantId && m.userId == userId && m.memberType == .owner

def reloadApplicationResult (actorUserId : UUID7) (reference : IdempotencyResultReference) :
    TenancyTx TenantApplicationResult := do
  require (reference.value.resultType = "tenant")
    (.idempotentResultUnavailable "idempotent result type does not match")
  let tenant ← read fun db => selectRow (fun t => isTenant reference.value.resultId t &&
    t.createdByUserId == actorUserId) db.identity.tenants
  let tenant ← orFail
    (.idempotentResultUnavailable "idempotent tenant result is unavailable") tenant
  let owner ← read fun db =>
    selectRow (ownerForApplication tenant.id actorUserId) db.identity.memberships
  let owner ← orFail
    (.idempotentResultUnavailable "idempotent membership result is unavailable") owner
  let owner ← ofExcept .valueError (membershipOf owner)
  pure ⟨tenant,owner,true⟩

def appliedTenant (q : CreateApplicationCall) : TenantModel where
  id := q.tenantId
  name := q.name.displayValue
  normalizedName := q.name.normalizedValue
  tenantType := q.tenantType
  createdByUserId := q.actorUserId

def ownerFields (q : CreateApplicationCall) : MembershipFields where
  id := q.membershipId
  tenantId := q.tenantId
  userId := q.actorUserId
  departmentId := none
  memberType := .owner
  status := .active
  validFrom := q.now
  validUntil := none
  authzVersion := 1
  version := 1

def rolloutFailure : RolloutFailure → TenancyFailure
  | .integrityError => .integrityError
  | .phase reasonCode => .valueError reasonCode
  | .roleTemplateUnavailable => .roleTemplateUnavailable

def createApplication (q : CreateApplicationCall) : TenancyTx TenantApplicationResult := do
  let active ← read fun db => lockActiveUser q.actorUserId db.identity
  require (active = true) .applicantUnavailable
  let reservation ← within .idempotency recordsOf (reserve (applicationRequest q))
  match reservation.replay with
  | some reference => reloadApplicationResult q.actorUserId reference
  | none => do
    zoom tenantsOf (insertRow .integrityError (appliedTenant q))
    let clones ← within rolloutFailure rolloutOf (cloneTemplatesForTenant q.tenantId q.newRoleId)
    let ownerRoleId ← orFail .roleTemplateUnavailable (clones.lookup "tenant_owner")
    let owner ← ofExcept .valueError (postInit membershipChecks (ownerFields q))
    zoom membershipsOf (insertRow .integrityError ⟨owner.value⟩)
    zoom assignmentsOf
      (insertRow .integrityError ⟨q.tenantId,q.membershipId,ownerRoleId,some q.membershipId⟩)
    let result ← ofExcept .valueError
      (postInit idempotencyResultChecks ⟨"tenant",q.tenantId,none,none⟩)
    within .idempotency recordsOf (complete reservation result q.now)
    pure ⟨appliedTenant q,owner,false⟩

/-- The rows of a new tenant that the membership rules speak of. -/
structure TenantApplied (q : CreateApplicationCall) (d d' : Identity) : Prop where
  memberships : Inserted ⟨ownerFields q⟩ d.memberships d'.memberships
  roles : ∃ added, d'.tenantRoles.rows = added++d.tenantRoles.rows
  owner : ∃ r ∈ d'.tenantRoles, r.tenantId = q.tenantId ∧ r.status = .active ∧
    r.code = "tenant_owner" ∧
    Inserted ⟨q.tenantId,q.membershipId,r.id,some q.membershipId⟩ d.assignments d'.assignments

inductive ApplicationEffect (q : CreateApplicationCall) (d : Identity) :
    TenantApplicationResult → Identity → Prop where
  | replayed (result : TenantApplicationResult) (h : result.replayed = true) :
      ApplicationEffect q d result d
  | applied (result : TenantApplicationResult) (d' : Identity) (hresult : result.tenant.id =
      q.tenantId) (h : TenantApplied q d d') : ApplicationEffect q d result d'

theorem mem_of_lookup {clones : List (String × UUID7)} {code : String} {id : UUID7}
    (h : clones.lookup code = some id) : (code,id) ∈ clones := by
  obtain ⟨before,after,rfl,-⟩ := List.lookup_eq_some_iff.mp h
  simp

theorem createApplication_effect {q : CreateApplicationCall} {result : TenantApplicationResult}
    {db db' : TenancyDatabase} (h : createApplication q db = .ok (result,db')) :
    ApplicationEffect q db.identity result db'.identity := by
  simp only [createApplication,bind_ok,read_ok,require_ok,within_ok] at h
  obtain ⟨_,_,⟨rfl,rfl⟩,_,_,⟨-,rfl⟩,reservation,_,⟨records,-,rfl⟩,h⟩ := h
  cases hreplay : reservation.replay with
  | some reference =>
    rw [hreplay] at h
    simp only [reloadApplicationResult,bind_ok,require_ok,read_ok,orFail_ok,ofExcept_ok,
      pure_ok] at h
    obtain ⟨_,_,⟨-,rfl⟩,_,_,⟨rfl,rfl⟩,_,_,⟨-,rfl⟩,_,_,⟨rfl,rfl⟩,_,_,⟨-,rfl⟩,_,_,⟨-,rfl⟩,rfl,
      rfl⟩ := h
    exact .replayed _ rfl
  | none =>
    rw [hreplay] at h
    simp only [bind_ok,zoom_ok,within_ok,insertRow_ok,orFail_ok,ofExcept_ok,pure_ok] at h
    obtain ⟨_,_,⟨tenants,-,rfl⟩,clones,_,⟨rollout,hclones,rfl⟩,roleId,_,⟨hrole,rfl⟩,owner,_,
      ⟨howner,rfl⟩,_,_,⟨memberships,hmemberships,rfl⟩,_,_,⟨assignments,hassignments,rfl⟩,_,_,
      ⟨-,rfl⟩,_,_,⟨_,-,rfl⟩,rfl,rfl⟩ := h
    obtain ⟨templates,roles,granted,-,-,hroles,-,rfl,rfl⟩ := cloneTemplates_ok hclones
    obtain ⟨template,htemplate,hpair⟩ := List.mem_map.mp (mem_of_lookup hrole)
    obtain ⟨hcode,rfl⟩ := Prod.mk.inj hpair
    rw [postInit_ok howner] at hmemberships
    refine .applied _ _ rfl ⟨hmemberships,⟨_,hroles⟩,clonedRole q.tenantId q.newRoleId template,
      ?_,rfl,rfl,hcode,hassignments⟩
    change _ ∈ roles.rows
    rw [hroles]
    exact List.mem_append_left _ (List.mem_map_of_mem htemplate)

end LawyerAgent.TenantApplications
