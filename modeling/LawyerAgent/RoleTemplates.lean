import LawyerAgent.PermissionRollout

/-!
# Role templates

The built-in roles of a new tenant are cloned from the role templates, which
must be exactly the seeded ones. While the feature is only catalogued or being
deactivated its permissions are left out of the clones.
-/

set_option autoImplicit false

namespace LawyerAgent.RoleTemplates
open Relational Common IdentityTables RolloutTables
open PermissionRollout

structure RoleSeed where
  code : String
  name : String
  description : String
  permissionCodes : List String

def tenantRoleTemplates : List RoleSeed :=
  [⟨"tenant_owner","租户所有者","管理租户、组织、成员和角色。",
    ["tenant.read","tenant.update","department.read","department.manage","membership.read",
     "membership.invite","membership.update","membership.revoke","role.read","role.assign",
     "external_service.enable"]⟩,
   ⟨"tenant_admin","租户管理员","管理组织、成员和角色，不拥有租户所有权。",
    ["tenant.read","department.read","department.manage","membership.read",
     "membership.invite","membership.update","membership.revoke","role.read","role.assign"]⟩,
   ⟨"department_admin","部门管理员","在 ABAC 限定的部门范围内管理成员。",
    ["tenant.read","department.read","department.manage","membership.read",
     "membership.invite","membership.update","role.read"]⟩,
   ⟨"lawyer_or_legal","律师或法务","处理获授权的法律业务资源。",
    ["tenant.read","department.read","membership.read"]⟩,
   ⟨"assistant","助理","协助处理获授权的业务资源。",
    ["tenant.read","department.read","membership.read"]⟩,
   ⟨"teacher","教师","访问获授权的教学组织信息。",
    ["tenant.read","department.read","membership.read"]⟩,
   ⟨"student","学生","访问明确授权的教学入口。",["tenant.read"]⟩,
   ⟨"external_client","外部客户","不授予租户目录权限，仅依赖后续资源级显式共享。",[]⟩]

def featurePermissionCodes : List String := ["ai_job.create","ai_job.read","ai_job.cancel"]

def featureTargetRoles : List String :=
  ["tenant_owner","tenant_admin","department_admin","lawyer_or_legal","assistant","teacher"]

def sameElements (xs ys : List String) : Bool :=
  xs.all (ys.contains ·) && ys.all (xs.contains ·)

def featurePhase (db : RolloutDatabase) : FeaturePhase :=
  ((selectRow isFeature db.rollouts).map fun r => r.phase).getD .catalogOnly

def templateHasFeature (phase : FeaturePhase) : Bool :=
  decide (phase ∈ [.activating,.activated,.deactivating])

def filterFeature (phase : FeaturePhase) : Bool :=
  decide (phase ∈ [.catalogOnly,.deactivating])

/-- The active permissions of a template, with their ids. -/
def permissionsByTemplate (templateId : UUID7) (db : RolloutDatabase) : List (UUID7 × String) :=
  (selectRows (fun p => p.roleTemplateId == templateId) db.templatePermissions).filterMap fun p =>
    (selectRow (fun q => q.id == p.permissionId && q.status == .active)
      db.identity.permissions).map fun q => (q.id,q.code)

def expectedPermissions (phase : FeaturePhase) (seed : RoleSeed) : List String :=
  if templateHasFeature phase && featureTargetRoles.contains seed.code then
    seed.permissionCodes ++ featurePermissionCodes
  else seed.permissionCodes

def matchesSeed (phase : FeaturePhase) (db : RolloutDatabase) (t : RoleTemplateModel) : Bool :=
  (tenantRoleTemplates.find? fun seed => seed.code == t.code).any fun expected =>
    t.name == expected.name && t.description == expected.description &&
    sameElements ((permissionsByTemplate t.id db).map Prod.snd)
      (expectedPermissions phase expected)

def clonedRole (tenantId : UUID7) (newRoleId : String → UUID7) (t : RoleTemplateModel) :
    TenantRoleModel where
  id := newRoleId t.code
  tenantId := tenantId
  roleTemplateId := some t.id
  code := t.code
  name := t.name

def clonedPermissions (tenantId : UUID7) (newRoleId : String → UUID7) (db : RolloutDatabase)
    (t : RoleTemplateModel) : List TenantRolePermissionModel :=
  ((permissionsByTemplate t.id db).filter fun p =>
    !(filterFeature (featurePhase db) && featurePermissionCodes.contains p.2)).map fun p =>
      ⟨tenantId,newRoleId t.code,p.1⟩

/-- `newRoleId` draws the identifier of the role cloned from a template. -/
def cloneTemplatesForTenant (tenantId : UUID7) (newRoleId : String → UUID7) :
    RolloutTx (List (String × UUID7)) := do
  let db ← read id
  let templates := selectRows (fun t => t.status == .active) db.templates
  require (sameElements (templates.map fun t => t.code)
    (tenantRoleTemplates.map fun seed => seed.code) = true) .roleTemplateUnavailable
  require (templates.all (matchesSeed (featurePhase db) db) = true) .roleTemplateUnavailable
  zoom tenantRolesOf (insertRows .integrityError (templates.map (clonedRole tenantId newRoleId)))
  zoom rolePermissionsOf
    (insertRows .integrityError (templates.flatMap (clonedPermissions tenantId newRoleId db)))
  pure (templates.map fun t => (t.code,newRoleId t.code))

end LawyerAgent.RoleTemplates
