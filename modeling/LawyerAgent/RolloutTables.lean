import LawyerAgent.IdentityTables

/-!
# Role templates and permission rollouts

Role templates with their permissions, and the rollout of a feature's
permissions: one row for the feature, one for each tenant.
-/

set_option autoImplicit false

namespace LawyerAgent.RolloutTables
open Relational Common IdentityTables

structure RoleTemplateModel where
  id : UUID7
  code : String
  name : String
  description : String
  status : CatalogStatus := .active

structure RoleTemplatePermissionModel where
  roleTemplateId : UUID7
  permissionId : UUID7

inductive FeaturePhase where
  | catalogOnly
  | activating
  | activated
  | deactivating
deriving DecidableEq, Repr

inductive TenantFeaturePhase where
  | catalogOnly
  | activating
  | activated
  | deactivating
  | failed
deriving DecidableEq, Repr

structure PermissionFeatureRolloutModel where
  featureCode : String
  phase : FeaturePhase := .catalogOnly
  manifestVersion : String
  manifestDigest : Digest
  rolloutGeneration : ℕ := 0
  version : ℕ := 1

structure PermissionFeatureTenantStateModel where
  id : UUID7
  featureCode : String
  tenantId : UUID7
  phase : TenantFeaturePhase := .catalogOnly
  targetManifestVersion : String
  appliedManifestVersion : String
  targetRolloutGeneration : ℕ := 0
  appliedRolloutGeneration : ℕ := 0
  claimOwner : Option String := none
  claimToken : Option UUID7 := none
  claimFence : Option ℕ := none
  claimExpiresAt : Option Time := none
  version : ℕ := 1

/-- The range of a signed `BIGINT` column. -/
def bigintMax : ℕ := 9223372036854775807

def roleTemplates : Schema RoleTemplateModel UUID7 where
  key := fun t => t.id
  check := fun _ => true
  clash := fun t u => t.code == u.code

def roleTemplatePermissions : Schema RoleTemplatePermissionModel (UUID7 × UUID7) where
  key := fun p => (p.roleTemplateId,p.permissionId)
  check := fun _ => true
  clash := fun _ _ => false

def permissionFeatureRollouts : Schema PermissionFeatureRolloutModel String where
  key := fun r => r.featureCode
  check := fun r => decide (r.rolloutGeneration ≤ bigintMax) && decide (r.version ≤ integerMax)
  clash := fun _ _ => false

def claimOk (s : PermissionFeatureTenantStateModel) : Bool :=
  (s.claimOwner.isNone && s.claimToken.isNone && s.claimFence.isNone &&
    s.claimExpiresAt.isNone) ||
  (s.claimOwner.isSome && s.claimToken.isSome && s.claimFence.isSome &&
    s.claimExpiresAt.isSome)

def permissionFeatureTenantStates : Schema PermissionFeatureTenantStateModel UUID7 where
  key := fun s => s.id
  check := fun s =>
    decide (s.appliedRolloutGeneration ≤ s.targetRolloutGeneration) &&
    decide (s.targetRolloutGeneration ≤ bigintMax) && claimOk s &&
    s.claimFence.all (decide <| · ≤ integerMax) && decide (s.version ≤ integerMax)
  clash := fun s t => s.featureCode == t.featureCode && s.tenantId == t.tenantId

structure RolloutDatabase where
  identity : Identity
  templates : Table roleTemplates
  templatePermissions : Table roleTemplatePermissions
  rollouts : Table permissionFeatureRollouts
  tenantStates : Table permissionFeatureTenantStates

def tenantsOf : Lens RolloutDatabase (Table tenants) where
  get := fun s => s.identity.tenants
  set := fun t s => {s with identity := {s.identity with tenants := t}}
  get_set := fun _ _ => rfl
  set_get := fun _ => rfl

def tenantRolesOf : Lens RolloutDatabase (Table tenantRoles) where
  get := fun s => s.identity.tenantRoles
  set := fun t s => {s with identity := {s.identity with tenantRoles := t}}
  get_set := fun _ _ => rfl
  set_get := fun _ => rfl

def rolePermissionsOf : Lens RolloutDatabase (Table tenantRolePermissions) where
  get := fun s => s.identity.rolePermissions
  set := fun t s => {s with identity := {s.identity with rolePermissions := t}}
  get_set := fun _ _ => rfl
  set_get := fun _ => rfl

def templatePermissionsOf : Lens RolloutDatabase (Table roleTemplatePermissions) where
  get := RolloutDatabase.templatePermissions
  set := fun t s => {s with templatePermissions := t}
  get_set := fun _ _ => rfl
  set_get := fun _ => rfl

def rolloutsOf : Lens RolloutDatabase (Table permissionFeatureRollouts) where
  get := RolloutDatabase.rollouts
  set := fun t s => {s with rollouts := t}
  get_set := fun _ _ => rfl
  set_get := fun _ => rfl

def tenantStatesOf : Lens RolloutDatabase (Table permissionFeatureTenantStates) where
  get := RolloutDatabase.tenantStates
  set := fun t s => {s with tenantStates := t}
  get_set := fun _ _ => rfl
  set_get := fun _ => rfl

end LawyerAgent.RolloutTables
