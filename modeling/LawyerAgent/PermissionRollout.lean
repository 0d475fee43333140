import LawyerAgent.RolloutTables
import LawyerAgent.Relational.Evolution

/-!
# Permission rollout

An operator begins and finalizes a phase transition of the feature; workers
claim tenants and apply the transition to each tenant's built-in roles.
-/

set_option autoImplicit false

namespace LawyerAgent.PermissionRollout
open Relational Common IdentityTables RolloutTables

inductive RolloutDirection where
  | activate
  | deactivate
deriving DecidableEq, Repr

/-- The codes are listed in the order the source sorts them into. -/
structure PermissionFeatureManifest where
  featureCode : String
  baseVersion : String
  featureVersion : String
  permissionCodes : List String
  targetRoleCodes : List String

def aiJobPermissionManifest : PermissionFeatureManifest where
  featureCode := "ai_job_runtime_v1"
  baseVersion := "ai-job-base-v1"
  featureVersion := "ai-job-feature-v1"
  permissionCodes := ["ai_job.cancel","ai_job.create","ai_job.read"]
  targetRoleCodes :=
    ["tenant_owner","tenant_admin","department_admin","lawyer_or_legal","assistant","teacher"]

def featureCode : String := "ai_job_runtime_v1"

inductive RolloutFailure where
  | integrityError
  | phase (reasonCode : String)
  | roleTemplateUnavailable
deriving DecidableEq, Repr

abbrev RolloutTx (α : Type) : Type := Tx RolloutFailure RolloutDatabase α

def isFeature (r : PermissionFeatureRolloutModel) : Bool := r.featureCode == featureCode

def loadGlobal : RolloutTx PermissionFeatureRolloutModel := do
  let model ← read fun db => selectRow isFeature db.rollouts
  orFail (.phase "feature_row_missing") model

def RolloutDirection.before : RolloutDirection → FeaturePhase
  | .activate => .catalogOnly
  | .deactivate => .activated

def RolloutDirection.during : RolloutDirection → FeaturePhase
  | .activate => .activating
  | .deactivate => .deactivating

def RolloutDirection.after : RolloutDirection → FeaturePhase
  | .activate => .activated
  | .deactivate => .catalogOnly

def phaseText : FeaturePhase → String
  | .catalogOnly => "catalog_only"
  | .activating => "activating"
  | .activated => "activated"
  | .deactivating => "deactivating"

def rolloutAt (phase : FeaturePhase) (generation version : ℕ)
    (r : PermissionFeatureRolloutModel) : Bool :=
  isFeature r && r.phase == phase && r.rolloutGeneration == generation && r.version == version

def begunRollout (direction : RolloutDirection) (newGeneration : ℕ)
    (r : PermissionFeatureRolloutModel) : PermissionFeatureRolloutModel :=
  {r with
    phase := direction.during
    rolloutGeneration := newGeneration
    version := r.version+1}

def finalizedRollout (direction : RolloutDirection) (r : PermissionFeatureRolloutModel) :
    PermissionFeatureRolloutModel :=
  {r with
    phase := direction.after
    version := r.version+1}

def permissionId (code : String) : RolloutTx UUID7 := do
  let permission ← read fun db => selectRow (fun p => p.code == code) db.identity.permissions
  let permission ← orFail (.phase ("permission_missing:" ++ code)) permission
  pure permission.id

def permissionIds : List String → RolloutTx (List UUID7)
  | [] => pure []
  | code::codes => do
    let id ← permissionId code
    let ids ← permissionIds codes
    pure (id::ids)

def targetTemplates (manifest : PermissionFeatureManifest) (db : RolloutDatabase) :
    List RoleTemplateModel :=
  selectRows (fun t => manifest.targetRoleCodes.contains t.code) db.templates

def templateGrants (templates : List RoleTemplateModel) (ids : List UUID7) :
    List RoleTemplatePermissionModel :=
  templates.flatMap fun template => ids.map fun id => ⟨template.id,id⟩

def isTargetRole (tenantId : UUID7) (manifest : PermissionFeatureManifest)
    (r : TenantRoleModel) : Bool :=
  r.tenantId == tenantId && manifest.targetRoleCodes.contains r.code && !r.isCustom

def targetRoles (tenantId : UUID7) (manifest : PermissionFeatureManifest)
    (d : Identity) : List TenantRoleModel :=
  selectRows (isTargetRole tenantId manifest) d.tenantRoles

def roleGrants (tenantId : UUID7) (roles : List TenantRoleModel) (ids : List UUID7) :
    List TenantRolePermissionModel :=
  roles.flatMap fun role => ids.map fun id => ⟨tenantId,role.id,id⟩

def addTemplatePermissions (manifest : PermissionFeatureManifest) : RolloutTx Unit := do
  let templates ← read (targetTemplates manifest)
  let ids ← permissionIds manifest.permissionCodes
  zoom templatePermissionsOf (insertRows .integrityError (templateGrants templates ids))

def removeTemplatePermissions (manifest : PermissionFeatureManifest) : RolloutTx Unit := do
  let templates ← read (targetTemplates manifest)
  let ids ← permissionIds manifest.permissionCodes
  let _ ← zoom templatePermissionsOf (deleteRows fun p =>
    (templateGrants templates ids).any fun g =>
      g.roleTemplateId == p.roleTemplateId && g.permissionId == p.permissionId)

def addTenantRolePermissions (tenantId : UUID7) (manifest : PermissionFeatureManifest) :
    RolloutTx Unit := do
  let roles ← read fun db => targetRoles tenantId manifest db.identity
  let ids ← permissionIds manifest.permissionCodes
  zoom rolePermissionsOf (insertRows .integrityError (roleGrants tenantId roles ids))

/-- One `DELETE` for each role and permission. -/
def removeTenantRolePermissions (tenantId : UUID7) (manifest : PermissionFeatureManifest) :
    RolloutTx Unit := do
  let roles ← read fun db => targetRoles tenantId manifest db.identity
  let ids ← permissionIds manifest.permissionCodes
  let _ ← zoom rolePermissionsOf (deleteRows fun p =>
    (roleGrants tenantId roles ids).any fun g => g.tenantId == p.tenantId &&
      g.tenantRoleId == p.tenantRoleId && g.permissionId == p.permissionId)

def newState (manifest : PermissionFeatureManifest) (newId : UUID7 → UUID7) (tenantId : UUID7) :
    PermissionFeatureTenantStateModel where
  id := newId tenantId
  featureCode := featureCode
  tenantId := tenantId
  targetManifestVersion := manifest.baseVersion
  appliedManifestVersion := manifest.baseVersion

/-- Every tenant without a state row gets one; the proof compares the counts. -/
def reconcileExpandWindow (manifest : PermissionFeatureManifest) (newId : UUID7 → UUID7) :
    RolloutTx (ℕ × ℕ) := do
  let missing ← read fun db => (db.identity.tenants.rows.map fun t => t.id).filter fun tenantId =>
    !(db.tenantStates.rows.any fun s => s.tenantId == tenantId)
  zoom tenantStatesOf (insertRows .integrityError (missing.map (newState manifest newId)))
  read fun db => (db.identity.tenants.rows.length,db.tenantStates.rows.length)

def beginTemplates (direction : RolloutDirection) (manifest : PermissionFeatureManifest) :
    RolloutTx Unit :=
  if direction = .activate then addTemplatePermissions manifest else pure ()

def finalizeTemplates (direction : RolloutDirection) (manifest : PermissionFeatureManifest) :
    RolloutTx Unit :=
  if direction = .deactivate then removeTemplatePermissions manifest else pure ()

def beginPhaseTransition (direction : RolloutDirection)
    (manifest : PermissionFeatureManifest) : RolloutTx ℕ := do
  let global ← loadGlobal
  require (global.phase = direction.before)
    (.phase ("expected_" ++ phaseText direction.before))
  beginTemplates direction manifest
  let newGeneration := global.rolloutGeneration+1
  let changed ← zoom rolloutsOf (updateRows .integrityError
    (rolloutAt direction.before global.rolloutGeneration global.version)
    (begunRollout direction newGeneration))
  require (changed = 1) (.phase "generation_cas_failed")
  pure newGeneration

def finalizePhaseTransition (direction : RolloutDirection) (generation : ℕ)
    (manifest : PermissionFeatureManifest) : RolloutTx Unit := do
  let global ← loadGlobal
  require (global.rolloutGeneration = generation) (.phase "generation_mismatch")
  require (global.phase = direction.during)
    (.phase ("expected_" ++ phaseText direction.during))
  let changed ← zoom rolloutsOf (updateRows .integrityError
    (rolloutAt direction.during generation global.version) (finalizedRollout direction))
  require (changed = 1) (.phase "finalize_cas_failed")
  finalizeTemplates direction manifest

def isState (tenantId : UUID7) (s : PermissionFeatureTenantStateModel) : Bool :=
  s.featureCode == featureCode && s.tenantId == tenantId

/-- The values a claim draws, given for each state row by its id. -/
structure ClaimValues where
  claimToken : UUID7 → UUID7
  claimExpiresAt : Time

def claimedState (targetManifest : String) (generation : ℕ) (values : ClaimValues)
    (s : PermissionFeatureTenantStateModel) : PermissionFeatureTenantStateModel :=
  {s with
    targetManifestVersion := targetManifest
    targetRolloutGeneration := generation
    claimOwner := some "rollout-worker"
    claimToken := some (values.claimToken s.id)
    claimFence := some (s.claimFence.getD 0+1)
    claimExpiresAt := some values.claimExpiresAt
    version := s.version+1}

def PermissionFeatureManifest.versionOf (manifest : PermissionFeatureManifest) :
    RolloutDirection → String
  | .activate => manifest.featureVersion
  | .deactivate => manifest.baseVersion

def lockState (tenantId : UUID7) : RolloutTx PermissionFeatureTenantStateModel := do
  let state ← read fun db => selectRow (isState tenantId) db.tenantStates
  orFail (.phase "tenant_state_missing") state

def claimTenant (tenantId : UUID7) (generation : ℕ) (manifest : PermissionFeatureManifest)
    (direction : RolloutDirection) (values : ClaimValues) :
    RolloutTx PermissionFeatureTenantStateModel := do
  let model ← lockState tenantId
  if generation ≤ model.appliedRolloutGeneration then pure model
  else
    let _ ← zoom tenantStatesOf (updateRows .integrityError (fun s => s.id == model.id)
      (claimedState (manifest.versionOf direction) generation values))
    let refreshed ← read fun db => selectRow (fun s => s.id == model.id) db.tenantStates
    orFail (.phase "tenant_state_missing") refreshed

def stateBefore (s u : PermissionFeatureTenantStateModel) : Prop := s.id.int.toNat ≤ u.id.int.toNat

instance : DecidableRel stateBefore := fun s u =>
  inferInstanceAs (Decidable (s.id.int.toNat ≤ u.id.int.toNat))

def pendingState (generation : ℕ) (s : PermissionFeatureTenantStateModel) : Bool :=
  s.featureCode == featureCode && decide (s.appliedRolloutGeneration < generation)

def pendingBatch (generation limit : ℕ) (locked : UUID7 → Bool)
    (t : Table permissionFeatureTenantStates) : List PermissionFeatureTenantStateModel :=
  ((selectRows (fun s => pendingState generation s && !locked s.id) t).insertionSort
    stateBefore).take limit

/-- One `UPDATE` for each row of the batch. -/
def claimBatch (generation limit : ℕ) (manifest : PermissionFeatureManifest)
    (direction : RolloutDirection) (locked : UUID7 → Bool) (values : ClaimValues) :
    RolloutTx (List UUID7) := do
  let models ← read fun db => pendingBatch generation limit locked db.tenantStates
  let _ ← zoom tenantStatesOf (updateRows .integrityError
    (fun s => models.any fun m => m.id == s.id)
    (claimedState (manifest.versionOf direction) generation values))
  pure (models.map fun m => m.tenantId)

def appliedPhase : RolloutDirection → TenantFeaturePhase
  | .activate => .activated
  | .deactivate => .catalogOnly

def appliedState (direction : RolloutDirection) (generation : ℕ)
    (manifest : PermissionFeatureManifest) (s : PermissionFeatureTenantStateModel) :
    PermissionFeatureTenantStateModel :=
  {s with
    phase := appliedPhase direction
    appliedManifestVersion := manifest.versionOf direction
    appliedRolloutGeneration := generation
    claimOwner := none
    claimToken := none
    claimFence := none
    claimExpiresAt := none
    version := s.version+1}

def applyTenantActivation (tenantId : UUID7) (generation : ℕ)
    (manifest : PermissionFeatureManifest) : RolloutTx Unit := do
  let state ← lockState tenantId
  addTenantRolePermissions tenantId manifest
  let _ ← zoom tenantStatesOf (updateRows .integrityError (fun s => s.id == state.id)
    (appliedState .activate generation manifest))

def applyTenantDeactivation (tenantId : UUID7) (generation : ℕ)
    (manifest : PermissionFeatureManifest) : RolloutTx Unit := do
  let state ← lockState tenantId
  removeTenantRolePermissions tenantId manifest
  let _ ← zoom tenantStatesOf (updateRows .integrityError (fun s => s.id == state.id)
    (appliedState .deactivate generation manifest))

end LawyerAgent.PermissionRollout
