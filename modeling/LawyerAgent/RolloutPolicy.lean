import LawyerAgent.RolloutConvergence
import LawyerAgent.TenantAuthorization

/-!
# Decisions after an activation

An activation writes permission codes that the policy engine does not know. A
member whose roles receive one is refused every action from then on; every
other decision stands.
-/

set_option autoImplicit false

namespace LawyerAgent.RolloutPolicy
open Relational Common IdentityTables
open SessionTables RolloutTables PermissionRollout
open PermissionRolloutSteps RolloutFencing RolloutConvergence
open RolloutRetry
open Authorization TenantAuthorization

/-- One of the member's active roles is a built-in target role, and the catalog
has an active permission of the rollout to give it. -/
def Receives (manifest : PermissionFeatureManifest) (rolledTenantId tenantId membershipId : UUID7)
    (d : Identity) : Prop :=
  ∃ role ∈ activeRoles tenantId membershipId d, isTargetRole rolledTenantId manifest role = true ∧
    ∃ q ∈ d.permissions, q.code ∈ manifest.permissionCodes ∧ q.status = .active

variable {manifest : PermissionFeatureManifest} {rolledTenantId : UUID7} {generation : ℕ}
  {s : PermissionFeatureTenantStateModel} {ids : List UUID7} {db db' : RolloutDatabase}

theorem activeRoles_kept (done : Applied .activate rolledTenantId generation manifest s ids db db')
    (tenantId membershipId : UUID7) :
    activeRoles tenantId membershipId db'.identity =
      activeRoles tenantId membershipId db.identity := by
  rw [done.frame]
  rfl

theorem activeRoles_stored {tenantId membershipId : UUID7} {d : Identity} {role : TenantRoleModel}
    (h : role ∈ activeRoles tenantId membershipId d) : role ∈ d.tenantRoles := by
  obtain ⟨x,hx,hmap⟩ := List.mem_flatMap.mp h
  obtain ⟨_,-,rfl⟩ := List.mem_map.mp hmap
  exact (mem_selectRows.mp hx).1

theorem column_after (done : Applied .activate rolledTenantId generation manifest s ids db db')
    {role : TenantRoleModel} (hrole : role ∈ db.identity.tenantRoles) {code : String} :
    some code ∈ permissionColumn role db'.identity ↔
      some code ∈ permissionColumn role db.identity ∨
      isTargetRole rolledTenantId manifest role = true ∧ code ∈ manifest.permissionCodes ∧
        ∃ q ∈ db.identity.permissions, q.code = code ∧ q.status = .active := by
  have hpermissions : db'.identity.permissions = db.identity.permissions := by rw [done.frame]
  rw [mem_permissionColumn,mem_permissionColumn,hpermissions]
  constructor
  · rintro ⟨p,hp,htenant,hid,q,hq,hqid,hstatus,hcode⟩
    rw [mem_rows,done.granted,regrant,List.mem_append] at hp
    rcases hp with hnew | hold
    · right
      obtain ⟨target,htarget,id,hmem,rfl⟩ := mem_roleGrants.mp hnew
      obtain ⟨hstored,hcond⟩ := mem_selectRows.mp htarget
      obtain rfl : target = role := eq_of_key hstored hrole hid
      obtain ⟨code',hcode',hcat⟩ := (mem_catalogIds done.catalog).mp hmem
      obtain ⟨q',hq',hqcode,hqid'⟩ := catalogId_some hcat
      obtain rfl : q' = q := eq_of_key hq' hq (hqid'.trans hqid.symm)
      obtain rfl : code' = code := hqcode.symm.trans hcode
      exact ⟨hcond,hcode',q',hq,hcode,hstatus⟩
    · exact Or.inl ⟨p,hold,htenant,hid,q,hq,hqid,hstatus,hcode⟩
  · rintro (⟨p,hp,hrest⟩ | ⟨htarget,hcode,q,hq,hqcode,hstatus⟩)
    · refine ⟨p,?_,hrest⟩
      rw [mem_rows,done.granted,regrant]
      exact List.mem_append_right _ hp
    · obtain ⟨id,hmem,hcat⟩ := catalogIds_mem done.catalog hcode
      obtain ⟨q',hq',hqcode',rfl⟩ := catalogId_some hcat
      have hclash : permissionCatalog.clash q' q = true := by
        simp [permissionCatalog,hqcode,hqcode']
      obtain rfl : q' = q := eq_of_clash hq' hq hclash
      have htenant : role.tenantId = rolledTenantId := by
        simp only [isTargetRole,Bool.and_eq_true,beq_iff_eq] at htarget
        exact htarget.1.1
      refine ⟨⟨rolledTenantId,role.id,q'.id⟩,?_,htenant.symm,rfl,q',hq,rfl,hstatus,hqcode⟩
      rw [mem_rows,done.granted,regrant]
      exact List.mem_append_left _
        (mem_roleGrants.mpr ⟨role,mem_selectRows.mpr ⟨hrole,htarget⟩,q'.id,hmem,rfl⟩)

theorem codes_after (done : Applied .activate rolledTenantId generation manifest s ids db db')
    {tenantId membershipId : UUID7} {code : String} :
    code ∈ permissionCodes tenantId membershipId db'.identity ↔
      code ∈ permissionCodes tenantId membershipId db.identity ∨
      code ∈ manifest.permissionCodes ∧
        (∃ role ∈ activeRoles tenantId membershipId db.identity,
          isTargetRole rolledTenantId manifest role = true) ∧
        ∃ q ∈ db.identity.permissions, q.code = code ∧ q.status = .active := by
  rw [mem_permissionCodes,mem_permissionCodes,activeRoles_kept done]
  constructor
  · rintro ⟨role,hrole,hcol⟩
    rcases (column_after done (activeRoles_stored hrole)).mp hcol with hold | ⟨ht,hcode,hq⟩
    · exact Or.inl ⟨role,hrole,hold⟩
    · exact Or.inr ⟨hcode,⟨role,hrole,ht⟩,hq⟩
  · rintro (⟨role,hrole,hcol⟩ | ⟨hcode,⟨role,hrole,ht⟩,hq⟩)
    · exact ⟨role,hrole,(column_after done (activeRoles_stored hrole)).mpr (Or.inl hcol)⟩
    · exact ⟨role,hrole,
        (column_after done (activeRoles_stored hrole)).mpr (Or.inr ⟨ht,hcode,hq⟩)⟩

theorem roles_after (done : Applied .activate rolledTenantId generation manifest s ids db db')
    {tenantId membershipId : UUID7} {code : String} :
    code ∈ roleCodes tenantId membershipId db'.identity ↔
      code ∈ roleCodes tenantId membershipId db.identity := by
  rw [mem_roleCodes,mem_roleCodes,activeRoles_kept done]

/-- The rest of a snapshot does not read what the roles are granted. -/
theorem snapshot_after {actor : TenantActor} {targets : List UUID7} {d : Identity}
    {t : Table tenantRolePermissions} {sessions : Table authSessions}
    {before after : TenantAuthorizationSnapshot}
    (h : loadSnapshot actor.principal actor.context targets d sessions = .ok (some before))
    (h' : loadSnapshot actor.principal actor.context targets {d with rolePermissions := t}
      sessions = .ok (some after)) :
    after = {before with
      permissions := after.permissions
      roleCodes := after.roleCodes} := by
  unfold loadSnapshot at h h'
  split at h
  · rename_i membershipId membershipUserId hmembership huser
    simp only [hmembership,huser] at h'
    split at h
    · rename_i user tenant huserRow htenantRow
      simp only [huserRow,htenantRow,bind,Except.bind] at h h'
      split at h
      · cases h
      rename_i memberships hms
      simp only [hms] at h'
      split at h
      · cases h
      rename_i actor' hactor
      simp only [hactor] at h'
      split at h
      · cases h
      rename_i hsame
      rw [if_neg hsame] at h'
      cases h
      cases h'
      rfl
    · cases h
  · cases h
  · cases h

theorem otherwise_after {p : Principal} {c : TenantContext} {action : Action}
    {r : ResourceAttributes} {now : Time} {permissions roles : List String}
    (h : OtherwiseAllowed p c action r now) :
    OtherwiseAllowed {p with
      permissions := permissions
      roleCodes := roles} c action r now :=
  ⟨h.identity,h.session,h.tenant,h.status,h.membership,h.scope,h.state⟩

theorem featureCodes_unknown :
    ∀ code ∈ aiJobPermissionManifest.permissionCodes, ¬code ∈ knownPermissionCodes := by
  decide

/-- An allowed action stays allowed exactly where the member receives nothing. -/
theorem allowed_after_activation {actor : TenantActor} {targets : List UUID7}
    {sessions : Table authSessions} {before after : TenantAuthorizationSnapshot}
    (action : Action) (resource : ResourceAttributes) (now : Time)
    (hactivation : applyTenantActivation rolledTenantId generation aiJobPermissionManifest db =
      .ok ((),db'))
    (hbefore : loadSnapshot actor.principal actor.context targets db.identity sessions =
      .ok (some before))
    (hafter : loadSnapshot actor.principal actor.context targets db'.identity sessions =
      .ok (some after))
    (hallowed : (policyDecision actor before action resource now).allowed = true) :
    (policyDecision actor after action resource now).allowed = true ↔
      ¬Receives aiJobPermissionManifest rolledTenantId actor.context.tenantId
        before.actorMembership.value.id db.identity := by
  obtain ⟨s,ids,done⟩ := applyTenant_ok .activate hactivation
  have hsame : after = {before with
      permissions := after.permissions
      roleCodes := after.roleCodes} := by
    have hafter' := hafter
    rw [done.frame] at hafter'
    exact snapshot_after hbefore hafter'
  have hmember : after.actorMembership = before.actorMembership := by rw [hsame]
  have hb := loadSnapshot_ok hbefore
  have ha := loadSnapshot_ok hafter
  obtain ⟨hother,hpermission⟩ := decide_allowed.mp hallowed
  obtain ⟨hknown,hroles,haction⟩ := permissionReason_none.mp hpermission
  have hother' : OtherwiseAllowed (authoritativePrincipal actor after) after.context action
      resource now := by
    have hcontext : after.context = before.context := by rw [hsame]
    have hprincipal : authoritativePrincipal actor after =
        {authoritativePrincipal actor before with
          permissions := after.permissions
          roleCodes := after.roleCodes} := by
      rw [hsame]
      rfl
    rw [hcontext,hprincipal]
    exact otherwise_after hother
  have hbp : (authoritativePrincipal actor before).permissions = permissionCodes
      actor.context.tenantId before.actorMembership.value.id db.identity := hb.permissions
  have hap : (authoritativePrincipal actor after).permissions = permissionCodes
      actor.context.tenantId before.actorMembership.value.id db'.identity := by
    rw [← hmember]
    exact ha.permissions
  have hbr : (authoritativePrincipal actor before).roleCodes = roleCodes
      actor.context.tenantId before.actorMembership.value.id db.identity := hb.roleCodes
  have har : (authoritativePrincipal actor after).roleCodes = roleCodes
      actor.context.tenantId before.actorMembership.value.id db'.identity := by
    rw [← hmember]
    exact ha.roleCodes
  rw [hbp] at hknown haction
  rw [hbr] at hroles
  constructor
  · rintro hafterAllowed ⟨role,hrole,htarget,q,hq,hcode,hstatus⟩
    obtain ⟨hall,-,-⟩ := permissionReason_none.mp (decide_allowed.mp hafterAllowed).2
    rw [hap] at hall
    refine featureCodes_unknown q.code hcode (hall q.code ?_)
    exact (codes_after done).mpr (Or.inr ⟨hcode,⟨role,hrole,htarget⟩,q,hq,rfl,hstatus⟩)
  · intro hnone
    refine decide_allowed.mpr ⟨hother',permissionReason_none.mpr ⟨?_,?_,?_⟩⟩
    · rw [hap]
      intro code hcode
      rcases (codes_after done).mp hcode with hold | ⟨hfeature,⟨role,hrole,ht⟩,q,hq,rfl,hst⟩
      · exact hknown code hold
      · exact absurd ⟨role,hrole,ht,q,hq,hfeature,hst⟩ hnone
    · rw [har]
      intro code hcode
      exact hroles code ((roles_after done).mp hcode)
    · rw [hap]
      exact (codes_after done).mpr (Or.inl haction)

def sampleOwner : TenantMembershipModel :=
  ⟨⟨⟨0,0,10⟩,sampleTenant,⟨0,0,6⟩,none,.owner,.active,0,none,1,1⟩⟩

/-- The sample tenant with an owner, whose role may read the tenant. -/
def ownerStart : RolloutDatabase :=
  {sampleStart with
    identity := {sampleStart.identity with
      users := .single ⟨⟨0,0,6⟩,.active,1⟩ rfl
      memberships := .single sampleOwner rfl
      permissions := ⟨⟨⟨0,0,9⟩,"tenant.read",.active⟩::samplePermissions.rows,by decide⟩
      rolePermissions := .single ⟨sampleTenant,sampleRole,⟨0,0,9⟩⟩ rfl
      assignments := .single ⟨sampleTenant,sampleOwner.id,sampleRole,none⟩ rfl}}

def ownerSessions : Table authSessions :=
  .single ⟨⟨0,0,11⟩,⟨0,0,6⟩,some sampleTenant,some sampleOwner.id,⟨0,0,12⟩,1,some 1,none,none,0,
    1,1,0⟩ rfl

def ownerActor : TenantActor where
  principal := {
    userId := ⟨0,0,6⟩
    sessionId := ⟨0,0,11⟩
    audience := .tenant
    tenantId := some sampleTenant
    membershipId := some sampleOwner.id
    userStatus := .active
    sessionValid := true
    authVersion := 1
    sessionAuthVersion := 1
    permissions := []
    roleCodes := []}
  context := {
    tenantId := sampleTenant
    membershipId := some sampleOwner.id
    membershipUserId := some ⟨0,0,6⟩
    departmentId := none
    tenantStatus := .active
    membershipStatus := some .active
    validFrom := some 0
    validUntil := none
    authzVersion := some 1
    sessionAuthzVersion := some 1
    scope := {allowTenantWide := true}}

def ownerSnapshot (db : RolloutDatabase) : Except String (Option TenantAuthorizationSnapshot) :=
  loadSnapshot ownerActor.principal ownerActor.context [] db.identity ownerSessions

def ownerReads (s : TenantAuthorizationSnapshot) : AuthorizationDecision :=
  policyDecision ownerActor s .tenantRead
    {tenantId := sampleTenant
     state := .active} 0

/-- The tenant is claimed for the first activation. -/
def ownerClaimed : RolloutDatabase :=
  run (rolloutStep aiJobPermissionManifest) [.reconcile fun _ => ⟨0,0,8⟩,
    .beginTransition .activate,sampleClaim 1 .activate] ownerStart

def ownerActivated : RolloutDatabase :=
  rolloutStep aiJobPermissionManifest (.apply .activate sampleTenant 1) ownerClaimed

theorem owner_locked_out :
    ((ownerSnapshot ownerClaimed).toOption.join.map ownerReads) =
      some ⟨true,"allowed",policyVersion,false⟩ ∧
    ((ownerSnapshot ownerActivated).toOption.join.map ownerReads) =
      some ⟨false,"unknown_permission",policyVersion,true⟩ := by
  decide

theorem snapshot_of_decision (d : RolloutDatabase) (decision : AuthorizationDecision)
    (h : (ownerSnapshot d).toOption.join.map ownerReads = some decision) :
    ∃ s, ownerSnapshot d = .ok (some s) ∧ ownerReads s = decision := by
  cases hs : ownerSnapshot d with
  | error message =>
    rw [hs] at h
    cases h
  | ok found =>
    cases found with
    | none =>
      rw [hs] at h
      cases h
    | some s =>
      rw [hs] at h
      cases h
      exact ⟨s,rfl,rfl⟩

theorem owner_receives : ∃ before after, ownerSnapshot ownerClaimed = .ok (some before) ∧
    ownerSnapshot ownerActivated = .ok (some after) ∧ ((ownerReads after).allowed = true ↔
      ¬Receives aiJobPermissionManifest sampleTenant sampleTenant
        before.actorMembership.value.id ownerClaimed.identity) := by
  obtain ⟨before,hbefore,hallowed⟩ := snapshot_of_decision ownerClaimed
    ⟨true,"allowed",policyVersion,false⟩ (by decide)
  obtain ⟨after,hafter,-⟩ := snapshot_of_decision ownerActivated
    ⟨false,"unknown_permission",policyVersion,true⟩ (by decide)
  have happlied : applyTenantActivation sampleTenant 1 aiJobPermissionManifest ownerClaimed =
      .ok ((),ownerActivated) :=
    outcome_ok (x := applyTenantActivation sampleTenant 1 aiJobPermissionManifest)
      (by decide)
  refine ⟨before,after,hbefore,hafter,?_⟩
  exact allowed_after_activation .tenantRead _ 0 happlied hbefore hafter
    (by rw [ownerReads] at hallowed; rw [hallowed])

end LawyerAgent.RolloutPolicy
