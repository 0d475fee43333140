import LawyerAgent.Tenancy
import LawyerAgent.Relational.Table

/-!
# Identity tables

Users, tenants, memberships and the roles of a membership. The roles and the
permissions a membership holds are one query, the join that the authority
loader and the permission lookup share.
-/

set_option autoImplicit false

namespace LawyerAgent.IdentityTables
open Relational Common Tenancy

inductive UserStatus where
  | active
  | locked
  | disabled
  | pendingDeletion
deriving DecidableEq, Repr

/-- The status of a permission, a role template or a tenant role. -/
inductive CatalogStatus where
  | active
  | disabled
deriving DecidableEq, Repr

inductive TenantType where
  | lawFirm
  | enterprise
  | university
deriving DecidableEq, Repr

inductive ReviewStatus where
  | pending
  | approved
  | rejected
deriving DecidableEq, Repr

structure UserModel where
  id : UUID7
  status : UserStatus := .active
  authVersion : ℕ := 1

structure TenantModel where
  id : UUID7
  name : String
  normalizedName : String
  tenantType : TenantType
  status : TenantStatus := .pendingVerification
  createdByUserId : UUID7
  reviewStatus : ReviewStatus := .pending
  version : ℕ := 1

structure DepartmentModel where
  id : UUID7
  tenantId : UUID7
  parentId : Option UUID7
  name : String
  status : DepartmentStatus := .active
  version : ℕ := 1

structure TenantMembershipModel extends MembershipFields

structure PermissionModel where
  id : UUID7
  code : String
  status : CatalogStatus := .active

structure TenantRoleModel where
  id : UUID7
  tenantId : UUID7
  roleTemplateId : Option UUID7
  code : String
  name : String
  isCustom : Bool := false
  status : CatalogStatus := .active
  version : ℕ := 1

structure TenantRolePermissionModel where
  tenantId : UUID7
  tenantRoleId : UUID7
  permissionId : UUID7

structure MembershipRoleAssignmentModel where
  tenantId : UUID7
  membershipId : UUID7
  tenantRoleId : UUID7
  assignedByMembershipId : Option UUID7

def users : Schema UserModel UUID7 where
  key := fun u => u.id
  check := fun u => decide (u.authVersion ≤ integerMax)
  clash := fun _ _ => false

def tenants : Schema TenantModel UUID7 where
  key := fun t => t.id
  check := fun t => decide (t.version ≤ integerMax)
  clash := fun _ _ => false

/-- Departments without a parent do not collide. -/
def departments : Schema DepartmentModel UUID7 where
  key := fun d => d.id
  check := fun d => decide (d.version ≤ integerMax)
  clash := fun d e => d.tenantId == e.tenantId && d.parentId.isSome &&
    d.parentId == e.parentId && d.name == e.name

def tenantMemberships : Schema TenantMembershipModel UUID7 where
  key := fun m => m.id
  check := fun m => decide (m.authzVersion ≤ integerMax) && decide (m.version ≤ integerMax)
  clash := fun m n => m.tenantId == n.tenantId && m.userId == n.userId

def permissionCatalog : Schema PermissionModel UUID7 where
  key := fun p => p.id
  check := fun _ => true
  clash := fun p q => p.code == q.code

def tenantRoles : Schema TenantRoleModel UUID7 where
  key := fun r => r.id
  check := fun r => decide (r.version ≤ integerMax)
  clash := fun r s => r.tenantId == s.tenantId && r.code == s.code

def tenantRolePermissions : Schema TenantRolePermissionModel (UUID7 × UUID7 × UUID7) where
  key := fun p => (p.tenantId,p.tenantRoleId,p.permissionId)
  check := fun _ => true
  clash := fun _ _ => false

def membershipRoleAssignments :
    Schema MembershipRoleAssignmentModel (UUID7 × UUID7 × UUID7) where
  key := fun a => (a.tenantId,a.membershipId,a.tenantRoleId)
  check := fun _ => true
  clash := fun _ _ => false

structure Identity where
  users : Table users
  tenants : Table tenants
  departments : Table departments
  memberships : Table tenantMemberships
  permissions : Table permissionCatalog
  tenantRoles : Table tenantRoles
  rolePermissions : Table tenantRolePermissions
  assignments : Table membershipRoleAssignments

def isUser (userId : UUID7) (u : UserModel) : Bool := u.id == userId

def isTenant (tenantId : UUID7) (t : TenantModel) : Bool := t.id == tenantId

def isMembership (tenantId membershipId : UUID7) (m : TenantMembershipModel) : Bool :=
  m.tenantId == tenantId && m.id == membershipId

/-- The active roles assigned to a membership, one for each assignment. -/
def activeRoles (tenantId membershipId : UUID7) (d : Identity) : List TenantRoleModel :=
  (selectRows (fun r => r.tenantId == tenantId && r.status == .active)
    d.tenantRoles).flatMap fun role =>
      (selectRows (fun a => a.tenantId == role.tenantId && a.tenantRoleId == role.id &&
        a.membershipId == membershipId) d.assignments).map fun _ => role

/-- The outer join with the permissions of a role: `none` where the role has no
permission row, or a row whose permission is not active. -/
def permissionColumn (role : TenantRoleModel) (d : Identity) : List (Option String) :=
  match selectRows (fun p => p.tenantId == role.tenantId && p.tenantRoleId == role.id)
      d.rolePermissions with
  | [] => [none]
  | granted => granted.map fun p =>
      (selectRow (fun q => q.id == p.permissionId && q.status == .active)
        d.permissions).map PermissionModel.code

def roleRows (tenantId membershipId : UUID7) (d : Identity) : List (String × Option String) :=
  (activeRoles tenantId membershipId d).flatMap fun role =>
    (permissionColumn role d).map fun code => (role.code,code)

/-- Read through membership only, as the source's frozensets are. -/
def roleCodes (tenantId membershipId : UUID7) (d : Identity) : List String :=
  (roleRows tenantId membershipId d).map Prod.fst

def permissionCodes (tenantId membershipId : UUID7) (d : Identity) : List String :=
  (roleRows tenantId membershipId d).filterMap Prod.snd

theorem permissionColumn_ne_nil (role : TenantRoleModel) (d : Identity) :
    permissionColumn role d ≠ [] := by
  unfold permissionColumn
  split
  · simp
  · rename_i granted hne
    simpa using hne

variable {code : String} {d : Identity}

theorem mem_roleCodes {tenantId membershipId : UUID7} :
    code ∈ roleCodes tenantId membershipId d ↔
      ∃ role ∈ activeRoles tenantId membershipId d, role.code = code := by
  constructor
  · intro h
    obtain ⟨row,hrow,rfl⟩ := List.mem_map.mp h
    obtain ⟨role,hrole,hcol⟩ := List.mem_flatMap.mp hrow
    obtain ⟨permission,-,rfl⟩ := List.mem_map.mp hcol
    exact ⟨role,hrole,rfl⟩
  · rintro ⟨role,hrole,rfl⟩
    obtain ⟨permission,hp⟩ := List.exists_mem_of_ne_nil _ (permissionColumn_ne_nil role d)
    refine List.mem_map.mpr ⟨(role.code,permission),?_,rfl⟩
    exact List.mem_flatMap.mpr ⟨role,hrole,List.mem_map.mpr ⟨permission,hp,rfl⟩⟩

theorem mem_permissionColumn {role : TenantRoleModel} :
    some code ∈ permissionColumn role d ↔
      ∃ p ∈ d.rolePermissions, p.tenantId = role.tenantId ∧ p.tenantRoleId = role.id ∧
      ∃ q ∈ d.permissions, q.id = p.permissionId ∧ q.status = .active ∧ q.code = code := by
  have hselect : ∀ p : TenantRolePermissionModel,
      (selectRow (fun q => q.id == p.permissionId && q.status == .active) d.permissions).map
        PermissionModel.code = some code ↔
      ∃ q ∈ d.permissions, q.id = p.permissionId ∧ q.status = .active ∧ q.code = code := by
    intro p
    constructor
    · intro h
      obtain ⟨q,hq,rfl⟩ := Option.map_eq_some_iff.mp h
      obtain ⟨hmem,hcond⟩ := selectRow_some hq
      simp only [Bool.and_eq_true,beq_iff_eq] at hcond
      exact ⟨q,hmem,hcond.1,hcond.2,rfl⟩
    · rintro ⟨q,hq,hid,hstatus,rfl⟩
      rw [selectRow_eq hq (by simp [hid,hstatus]) fun x hx hcond => ?_,Option.map_some]
      simp only [Bool.and_eq_true,beq_iff_eq] at hcond
      exact eq_of_key hx hq (hcond.1.trans hid.symm)
  have hcolumn : some code ∈ permissionColumn role d ↔
      ∃ p ∈ selectRows (fun p => p.tenantId == role.tenantId && p.tenantRoleId == role.id)
        d.rolePermissions, (selectRow (fun q => q.id == p.permissionId && q.status == .active)
          d.permissions).map PermissionModel.code = some code := by
    unfold permissionColumn
    split
    · rename_i hnone
      simp [hnone]
    · rw [List.mem_map]
  rw [hcolumn]
  simp only [mem_selectRows,Bool.and_eq_true,beq_iff_eq,hselect,and_assoc]

theorem mem_permissionCodes {tenantId membershipId : UUID7} :
    code ∈ permissionCodes tenantId membershipId d ↔
      ∃ role ∈ activeRoles tenantId membershipId d, some code ∈ permissionColumn role d := by
  constructor
  · intro h
    obtain ⟨row,hrow,hcode⟩ := List.mem_filterMap.mp h
    obtain ⟨role,hrole,hcol⟩ := List.mem_flatMap.mp hrow
    obtain ⟨permission,hp,rfl⟩ := List.mem_map.mp hcol
    exact ⟨role,hrole,hcode ▸ hp⟩
  · rintro ⟨role,hrole,hp⟩
    refine List.mem_filterMap.mpr ⟨(role.code,some code),?_,rfl⟩
    exact List.mem_flatMap.mpr ⟨role,hrole,List.mem_map.mpr ⟨some code,hp,rfl⟩⟩

theorem permission_role {tenantId membershipId : UUID7}
    (h : code ∈ permissionCodes tenantId membershipId d) :
    roleCodes tenantId membershipId d ≠ [] := by
  obtain ⟨row,hrow,-⟩ := List.mem_filterMap.mp h
  exact List.ne_nil_of_mem (List.mem_map_of_mem hrow)

end LawyerAgent.IdentityTables
