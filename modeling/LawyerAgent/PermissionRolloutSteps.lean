import LawyerAgent.RoleTemplates
import LawyerAgent.Relational.Run

/-!
# Steps of a rollout

The operator, the workers and the creation of tenants interleave, each call in
its own transaction. A worker's claim and its apply are two calls, with any
other calls between them. `RolloutEffect` says once what a call can do.
-/

set_option autoImplicit false

namespace LawyerAgent.PermissionRolloutSteps
open Relational Common IdentityTables RolloutTables
open PermissionRollout RoleTemplates

def catalogId (d : Identity) (code : String) : Option UUID7 :=
  (selectRow (fun p => p.code == code) d.permissions).map fun p => p.id

def catalogIds (d : Identity) : List String → Option (List UUID7)
  | [] => some []
  | code::codes => do
    let id ← catalogId d code
    let ids ← catalogIds d codes
    some (id::ids)

variable {db db' : RolloutDatabase} {s : PermissionFeatureTenantStateModel} {tenantId : UUID7}
  {manifest : PermissionFeatureManifest} {u : Unit} {generation : ℕ}
  {r : PermissionFeatureRolloutModel} {direction : RolloutDirection} {values : ClaimValues}

theorem permissionId_ok {code : String} {id : UUID7} :
    permissionId code db = .ok (id,db') ↔ catalogId db.identity code = some id ∧ db' = db := by
  simp only [permissionId,bind_ok,read_ok,orFail_ok,pure_ok,catalogId,Option.map_eq_some_iff]
  constructor
  · rintro ⟨_,_,⟨rfl,rfl⟩,p,_,⟨hp,rfl⟩,rfl,rfl⟩
    exact ⟨⟨p,hp,rfl⟩,rfl⟩
  · rintro ⟨⟨p,hp,rfl⟩,rfl⟩
    exact ⟨_,_,⟨rfl,rfl⟩,p,_,⟨hp,rfl⟩,rfl,rfl⟩

theorem permissionIds_ok {codes : List String} {ids : List UUID7} :
    permissionIds codes db = .ok (ids,db') ↔ catalogIds db.identity codes = some ids ∧ db' =
      db := by
  induction codes generalizing ids db' with
  | nil =>
    rw [permissionIds,pure_ok,catalogIds,Option.some.injEq]
    exact and_congr_right fun _ => eq_comm
  | cons code codes ih =>
    simp only [permissionIds,bind_ok,permissionId_ok,pure_ok,catalogIds,Option.bind_eq_bind,
      Option.bind_eq_some_iff,Option.some.injEq]
    constructor
    · rintro ⟨id,_,⟨hid,rfl⟩,rest,_,hrest,rfl,rfl⟩
      obtain ⟨hrest,rfl⟩ := ih.mp hrest
      exact ⟨⟨id,hid,rest,hrest,rfl⟩,rfl⟩
    · rintro ⟨⟨id,hid,rest,hrest,rfl⟩,rfl⟩
      exact ⟨id,_,⟨hid,rfl⟩,rest,_,ih.mpr ⟨hrest,rfl⟩,rfl,rfl⟩

theorem mem_catalogIds {d : Identity} {codes : List String} {ids : List UUID7}
    (h : catalogIds d codes = some ids) {id : UUID7} :
    id ∈ ids ↔ ∃ code ∈ codes, catalogId d code = some id := by
  induction codes generalizing ids with
  | nil =>
    cases h
    simp
  | cons code codes ih =>
    simp only [catalogIds,Option.bind_eq_bind,Option.bind_eq_some_iff,Option.some.injEq] at h
    obtain ⟨first,hfirst,rest,hrest,rfl⟩ := h
    simp only [List.mem_cons,ih hrest,exists_eq_or_imp,hfirst,Option.some.injEq]
    rw [eq_comm]

def regrant (direction : RolloutDirection)
    (grants rows : List TenantRolePermissionModel) : List TenantRolePermissionModel :=
  match direction with
  | .activate => grants++rows
  | .deactivate => rows.filter fun p => !(grants.any fun g => g.tenantId == p.tenantId &&
      g.tenantRoleId == p.tenantRoleId && g.permissionId == p.permissionId)

def applyTenant : RolloutDirection → UUID7 → ℕ → PermissionFeatureManifest → RolloutTx Unit
  | .activate => applyTenantActivation
  | .deactivate => applyTenantDeactivation

structure Applied (direction : RolloutDirection) (tenantId : UUID7) (generation : ℕ)
    (manifest : PermissionFeatureManifest) (s : PermissionFeatureTenantStateModel)
    (ids : List UUID7) (db db' : RolloutDatabase) : Prop where
  state : isState tenantId s = true
  row : Replaced s (appliedState direction generation manifest s) db.tenantStates
    db'.tenantStates
  catalog : catalogIds db.identity manifest.permissionCodes = some ids
  granted : db'.identity.rolePermissions.rows =
    regrant direction (roleGrants tenantId (targetRoles tenantId manifest db.identity) ids)
      db.identity.rolePermissions.rows
  frame : db' = {db with
    identity := {db.identity with rolePermissions := db'.identity.rolePermissions}
    tenantStates := db'.tenantStates}

theorem lockState_ok : lockState tenantId db = .ok (s,db') ↔
      selectRow (isState tenantId) db.tenantStates = some s ∧ db' = db := by
  simp only [lockState,bind_ok,read_ok,orFail_ok]
  constructor
  · rintro ⟨_,_,⟨rfl,rfl⟩,hs,rfl⟩
    exact ⟨hs,rfl⟩
  · rintro ⟨hs,rfl⟩
    exact ⟨_,_,⟨rfl,rfl⟩,hs,rfl⟩

theorem addTenantRolePermissions_ok :
    addTenantRolePermissions tenantId manifest db = .ok (u,db') ↔
      ∃ ids t, catalogIds db.identity manifest.permissionCodes = some ids ∧
        t.rows = regrant .activate
          (roleGrants tenantId (targetRoles tenantId manifest db.identity) ids)
          db.identity.rolePermissions.rows ∧
        db' = rolePermissionsOf.set t db := by
  simp only [addTenantRolePermissions,bind_ok,read_ok,permissionIds_ok,zoom_ok,insertRows_ok]
  constructor
  · rintro ⟨_,_,⟨rfl,rfl⟩,ids,_,⟨hids,rfl⟩,t,ht,rfl⟩
    exact ⟨ids,t,hids,ht,rfl⟩
  · rintro ⟨ids,t,hids,ht,rfl⟩
    exact ⟨_,_,⟨rfl,rfl⟩,ids,_,⟨hids,rfl⟩,t,ht,rfl⟩

theorem removeTenantRolePermissions_ok :
    removeTenantRolePermissions tenantId manifest db = .ok (u,db') ↔
      ∃ ids t, catalogIds db.identity manifest.permissionCodes = some ids ∧
        t.rows = regrant .deactivate
          (roleGrants tenantId (targetRoles tenantId manifest db.identity) ids)
          db.identity.rolePermissions.rows ∧
        db' = rolePermissionsOf.set t db := by
  simp only [removeTenantRolePermissions,bind_ok,read_ok,permissionIds_ok,zoom_ok,deleteRows_ok,
    pure_ok]
  constructor
  · rintro ⟨_,_,⟨rfl,rfl⟩,ids,_,⟨hids,rfl⟩,n,_,⟨t,⟨-,ht⟩,rfl⟩,-,rfl⟩
    exact ⟨ids,t,hids,ht,rfl⟩
  · rintro ⟨ids,t,hids,ht,rfl⟩
    exact ⟨_,_,⟨rfl,rfl⟩,ids,_,⟨hids,rfl⟩,_,_,⟨t,⟨rfl,ht⟩,rfl⟩,trivial,rfl⟩

theorem stateUpdated {f : PermissionFeatureTenantStateModel → PermissionFeatureTenantStateModel}
    {n : ℕ} {t t' : Table permissionFeatureTenantStates} (hs : s ∈ t) (hf : ∀ x, (f x).id = x.id)
    (h : updateRows RolloutFailure.integrityError (fun x => x.id == s.id) f t = .ok (n,t')) :
    Replaced s (f s) t t' := by
  rcases updateRows_keyed h s.id (fun r hr => eq_of_beq hr) hf with ⟨-,-,hnone⟩ | ⟨-,r,hr,hrep⟩
  · have := hnone s hs
    simp at this
  · rw [eq_of_key hs hrep.mem (eq_of_beq hr).symm]
    exact hrep

theorem applyTenant_ok (direction : RolloutDirection)
    (h : applyTenant direction tenantId generation manifest db = .ok ((),db')) :
    ∃ s ids, Applied direction tenantId generation manifest s ids db db' := by
  cases direction with
  | activate =>
    simp only [applyTenant,applyTenantActivation,bind_ok,lockState_ok,
      addTenantRolePermissions_ok,zoom_ok,pure_ok] at h
    obtain ⟨s,_,⟨hs,rfl⟩,_,_,⟨ids,t,hids,ht,rfl⟩,n,_,⟨u,hu,rfl⟩,-,rfl⟩ := h
    obtain ⟨hmem,hstate⟩ := selectRow_some hs
    exact ⟨s,ids,hstate,stateUpdated hmem (fun _ => rfl) hu,hids,ht,rfl⟩
  | deactivate =>
    simp only [applyTenant,applyTenantDeactivation,bind_ok,lockState_ok,
      removeTenantRolePermissions_ok,zoom_ok,pure_ok] at h
    obtain ⟨s,_,⟨hs,rfl⟩,_,_,⟨ids,t,hids,ht,rfl⟩,n,_,⟨u,hu,rfl⟩,-,rfl⟩ := h
    obtain ⟨hmem,hstate⟩ := selectRow_some hs
    exact ⟨s,ids,hstate,stateUpdated hmem (fun _ => rfl) hu,hids,ht,rfl⟩

inductive RolloutOp where
  | reconcile (newId : UUID7 → UUID7)
  | beginTransition (direction : RolloutDirection)
  | finalize (direction : RolloutDirection) (generation : ℕ)
  | claimTenant (tenantId : UUID7) (generation : ℕ) (direction : RolloutDirection)
      (values : ClaimValues)
  | claimBatch (generation limit : ℕ) (direction : RolloutDirection) (locked : UUID7 → Bool)
      (values : ClaimValues)
  | apply (direction : RolloutDirection) (tenantId : UUID7) (generation : ℕ)
  | createTenant (tenant : TenantModel) (newRoleId : String → UUID7)

/-- What the creation of a tenant does to these tables. -/
def createTenant (tenant : TenantModel) (newRoleId : String → UUID7) : RolloutTx Unit := do
  zoom tenantsOf (insertRow .integrityError tenant)
  let _ ← cloneTemplatesForTenant tenant.id newRoleId

def rolloutStep (manifest : PermissionFeatureManifest) : RolloutOp → RolloutDatabase →
    RolloutDatabase
  | .reconcile newId => commit (reconcileExpandWindow manifest newId)
  | .beginTransition direction => commit (beginPhaseTransition direction manifest)
  | .finalize direction generation =>
    commit (finalizePhaseTransition direction generation manifest)
  | .claimTenant tenantId generation direction values =>
    commit (claimTenant tenantId generation manifest direction values)
  | .claimBatch generation limit direction locked values =>
    commit (claimBatch generation limit manifest direction locked values)
  | .apply direction tenantId generation =>
    commit (applyTenant direction tenantId generation manifest)
  | .createTenant tenant newRoleId => commit (createTenant tenant newRoleId)

structure StateKept (s s' : PermissionFeatureTenantStateModel) : Prop where
  featureCode : s'.featureCode = s.featureCode
  tenantId : s'.tenantId = s.tenantId
  phase : s'.phase = s.phase
  applied : s'.appliedRolloutGeneration = s.appliedRolloutGeneration

theorem stateKept_refl (s : PermissionFeatureTenantStateModel) : StateKept s s :=
  ⟨rfl,rfl,rfl,rfl⟩

structure StateNew (db : RolloutDatabase) (s : PermissionFeatureTenantStateModel) : Prop where
  phase : s.phase = .catalogOnly
  applied : s.appliedRolloutGeneration = 0
  tenant : ∃ t ∈ db.identity.tenants, t.id = s.tenantId

structure TenantAdded (tenant : TenantModel) (db db' : RolloutDatabase) : Prop where
  tenants : Inserted tenant db.identity.tenants db'.identity.tenants
  roles : ∃ added, db'.identity.tenantRoles.rows = added++db.identity.tenantRoles.rows ∧
    ∀ r ∈ added, r.tenantId = tenant.id
  granted : ∃ added, db'.identity.rolePermissions.rows =
    added++db.identity.rolePermissions.rows ∧ ∀ p ∈ added, p.tenantId = tenant.id
  permissions : db'.identity.permissions = db.identity.permissions
  rollouts : db'.rollouts = db.rollouts
  states : db'.tenantStates = db.tenantStates

/-- The feature's row before and after a transition is begun or finalized. -/
inductive Transition (r : PermissionFeatureRolloutModel) : RolloutOp →
    PermissionFeatureRolloutModel → Prop where
  | begun (direction : RolloutDirection) (phase : r.phase = direction.before) :
      Transition r (.beginTransition direction)
        (begunRollout direction (r.rolloutGeneration+1) r)
  | finalized (direction : RolloutDirection) (phase : r.phase = direction.during) :
      Transition r (.finalize direction r.rolloutGeneration) (finalizedRollout direction r)

inductive RolloutEffect (manifest : PermissionFeatureManifest) (db : RolloutDatabase) :
    RolloutOp → RolloutDatabase → Prop where
  | unchanged (op : RolloutOp) : RolloutEffect manifest db op db
  | statesMoved (op : RolloutOp) (t : Table permissionFeatureTenantStates)
      (states : Evolves StateKept (StateNew db) db.tenantStates t) :
      RolloutEffect manifest db op {db with tenantStates := t}
  | transition (op : RolloutOp) (r r' : PermissionFeatureRolloutModel)
      (t : Table permissionFeatureRollouts) (u : Table roleTemplatePermissions)
      (feature : isFeature r = true) (moved : Transition r op r')
      (row : Replaced r r' db.rollouts t) :
      RolloutEffect manifest db op {db with rollouts := t, templatePermissions := u}
  | applied (direction : RolloutDirection) (tenantId : UUID7) (generation : ℕ)
      (s : PermissionFeatureTenantStateModel) (ids : List UUID7) (db' : RolloutDatabase)
      (done : Applied direction tenantId generation manifest s ids db db') :
      RolloutEffect manifest db (.apply direction tenantId generation) db'
  | tenantAdded (tenant : TenantModel) (newRoleId : String → UUID7) (db' : RolloutDatabase)
      (added : TenantAdded tenant db db') :
      RolloutEffect manifest db (.createTenant tenant newRoleId) db'

theorem loadGlobal_ok :
    loadGlobal db = .ok (r,db') ↔ selectRow isFeature db.rollouts = some r ∧ db' = db := by
  simp only [loadGlobal,bind_ok,read_ok,orFail_ok]
  constructor
  · rintro ⟨_,_,⟨rfl,rfl⟩,hr,rfl⟩
    exact ⟨hr,rfl⟩
  · rintro ⟨hr,rfl⟩
    exact ⟨_,_,⟨rfl,rfl⟩,hr,rfl⟩

theorem rolloutUpdated {phase : FeaturePhase} {generation version : ℕ}
    {f : PermissionFeatureRolloutModel → PermissionFeatureRolloutModel}
    {t t' : Table permissionFeatureRollouts} (hr : selectRow isFeature t = some r)
    (hf : ∀ x, (f x).featureCode = x.featureCode)
    (h : updateRows RolloutFailure.integrityError (rolloutAt phase generation version) f t = .ok
      (1,t')) :
    Replaced r (f r) t t' := by
  obtain ⟨hmem,hfeature⟩ := selectRow_some hr
  have hcode : ∀ x, isFeature x = true → x.featureCode = featureCode := fun x hx => eq_of_beq hx
  have hat : ∀ x, rolloutAt phase generation version x = true → x.featureCode = featureCode := by
    intro x hx
    simp only [rolloutAt,Bool.and_eq_true] at hx
    exact hcode x hx.1.1.1
  rcases updateRows_keyed h featureCode hat hf with ⟨hzero,-⟩ | ⟨-,x,hx,hrep⟩
  · cases hzero
  · rw [eq_of_key hmem hrep.mem ((hcode r hfeature).trans (hat x hx).symm)]
    exact hrep

theorem addTemplatePermissions_ok (h : addTemplatePermissions manifest db = .ok (u,db')) :
    ∃ t, db' = {db with templatePermissions := t} := by
  simp only [addTemplatePermissions,bind_ok,read_ok,permissionIds_ok,zoom_ok] at h
  obtain ⟨_,_,⟨rfl,rfl⟩,ids,_,⟨-,rfl⟩,t,-,rfl⟩ := h
  exact ⟨t,rfl⟩

theorem removeTemplatePermissions_ok (h : removeTemplatePermissions manifest db = .ok (u,db')) :
    ∃ t, db' = {db with templatePermissions := t} := by
  simp only [removeTemplatePermissions,bind_ok,read_ok,permissionIds_ok,zoom_ok,pure_ok] at h
  obtain ⟨_,_,⟨rfl,rfl⟩,ids,_,⟨-,rfl⟩,n,_,⟨t,-,rfl⟩,-,rfl⟩ := h
  exact ⟨t,rfl⟩

theorem beginTemplates_ok (h : beginTemplates direction manifest db = .ok (u,db')) :
    ∃ t, db' = {db with templatePermissions := t} := by
  cases direction with
  | activate => exact addTemplatePermissions_ok h
  | deactivate =>
    obtain ⟨-,rfl⟩ := pure_ok.mp h
    exact ⟨_,rfl⟩

theorem finalizeTemplates_ok (h : finalizeTemplates direction manifest db = .ok (u,db')) :
    ∃ t, db' = {db with templatePermissions := t} := by
  cases direction with
  | activate =>
    obtain ⟨-,rfl⟩ := pure_ok.mp h
    exact ⟨_,rfl⟩
  | deactivate => exact removeTemplatePermissions_ok h

theorem begin_effect (h : beginPhaseTransition direction manifest db = .ok (generation,db')) :
    RolloutEffect manifest db (.beginTransition direction) db' := by
  obtain ⟨r,db₁,h₁,hk₁⟩ := bind_ok.mp h
  obtain ⟨hr,rfl⟩ := loadGlobal_ok.mp h₁
  obtain ⟨_,db₂,h₂,hk₂⟩ := bind_ok.mp hk₁
  obtain ⟨hphase,rfl⟩ := require_ok.mp h₂
  obtain ⟨_,db₃,h₃,hk₃⟩ := bind_ok.mp hk₂
  obtain ⟨t,rfl⟩ := beginTemplates_ok h₃
  simp only [bind_ok,zoom_ok,require_ok,pure_ok] at hk₃
  obtain ⟨n,_,⟨u,hu,rfl⟩,_,_,⟨rfl,rfl⟩,rfl,rfl⟩ := hk₃
  exact .transition _ r _ u t (selectRow_some hr).2 (.begun direction hphase)
    (rolloutUpdated hr (fun _ => rfl) hu)

theorem finalize_effect (h : finalizePhaseTransition direction generation manifest db = .ok
      (u,db')) :
    RolloutEffect manifest db (.finalize direction generation) db' := by
  obtain ⟨r,db₁,h₁,hk₁⟩ := bind_ok.mp h
  obtain ⟨hr,rfl⟩ := loadGlobal_ok.mp h₁
  obtain ⟨_,db₂,h₂,hk₂⟩ := bind_ok.mp hk₁
  obtain ⟨rfl,rfl⟩ := require_ok.mp h₂
  obtain ⟨_,db₃,h₃,hk₃⟩ := bind_ok.mp hk₂
  obtain ⟨hphase,rfl⟩ := require_ok.mp h₃
  obtain ⟨n,db₄,h₄,hk₄⟩ := bind_ok.mp hk₃
  obtain ⟨t,ht,rfl⟩ := zoom_ok.mp h₄
  obtain ⟨_,db₅,h₅,hk₅⟩ := bind_ok.mp hk₄
  obtain ⟨rfl,rfl⟩ := require_ok.mp h₅
  obtain ⟨w,rfl⟩ := finalizeTemplates_ok hk₅
  exact .transition _ r _ t w (selectRow_some hr).2 (.finalized direction hphase)
    (rolloutUpdated hr (fun _ => rfl) ht)

theorem claimed_evolves {targetManifest : String} {generation n : ℕ}
    {p : PermissionFeatureTenantStateModel → Bool} {t : Table permissionFeatureTenantStates}
    (h : updateRows RolloutFailure.integrityError p (claimedState targetManifest generation values)
      db.tenantStates = .ok (n,t)) :
    Evolves StateKept (StateNew db) db.tenantStates t :=
  evolves_updated (f := claimedState targetManifest generation values) (fun _ => rfl)
    stateKept_refl (fun _ _ => ⟨rfl,rfl,rfl,rfl⟩) (updateRows_ok.mp h).2

theorem claimTenant_effect
    (h : claimTenant tenantId generation manifest direction values db = .ok (s,db')) :
    RolloutEffect manifest db (.claimTenant tenantId generation direction values) db' := by
  obtain ⟨model,db₁,h₁,hk₁⟩ := bind_ok.mp h
  obtain ⟨-,rfl⟩ := lockState_ok.mp h₁
  by_cases hdone : generation ≤ model.appliedRolloutGeneration
  · rw [if_pos hdone] at hk₁
    obtain ⟨-,rfl⟩ := pure_ok.mp hk₁
    exact .unchanged _
  · rw [if_neg hdone] at hk₁
    simp only [bind_ok,zoom_ok,read_ok,orFail_ok] at hk₁
    obtain ⟨n,_,⟨t,ht,rfl⟩,_,_,⟨-,rfl⟩,-,rfl⟩ := hk₁
    exact .statesMoved _ t (claimed_evolves ht)

theorem claimBatch_effect {generation limit : ℕ} {locked : UUID7 → Bool} {claimed : List UUID7}
    (h : claimBatch generation limit manifest direction locked values db = .ok (claimed,db')) :
    RolloutEffect manifest db (.claimBatch generation limit direction locked values) db' := by
  simp only [claimBatch,bind_ok,read_ok,zoom_ok,pure_ok] at h
  obtain ⟨_,_,⟨rfl,rfl⟩,n,_,⟨t,ht,rfl⟩,-,rfl⟩ := h
  exact .statesMoved _ t (claimed_evolves ht)

theorem reconcile_effect {newId : UUID7 → UUID7} {counts : ℕ × ℕ}
    (h : reconcileExpandWindow manifest newId db = .ok (counts,db')) :
    RolloutEffect manifest db (.reconcile newId) db' := by
  simp only [reconcileExpandWindow,bind_ok,read_ok,zoom_ok,insertRows_ok] at h
  obtain ⟨_,_,⟨rfl,rfl⟩,_,_,⟨t,ht,rfl⟩,-,rfl⟩ := h
  refine .statesMoved _ t (evolves_insertedRows stateKept_refl ?_ ht)
  intro s hs
  obtain ⟨tenantId,htenant,rfl⟩ := List.mem_map.mp hs
  obtain ⟨tenant,hmem,rfl⟩ := List.mem_map.mp (List.mem_filter.mp htenant).1
  exact ⟨rfl,rfl,tenant,hmem,rfl⟩

theorem cloneTemplates_ok {newRoleId : String → UUID7} {clones : List (String × UUID7)}
    (h : cloneTemplatesForTenant tenantId newRoleId db = .ok (clones,db')) :
    ∃ templates roles granted, templates = selectRows (fun t => t.status == .active) db.templates ∧
      sameElements (templates.map fun t => t.code)
        (tenantRoleTemplates.map fun seed => seed.code) = true ∧
      roles.rows = templates.map (clonedRole tenantId newRoleId)++db.identity.tenantRoles.rows ∧
      granted.rows = templates.flatMap (clonedPermissions tenantId newRoleId db)++
        db.identity.rolePermissions.rows ∧
      clones = templates.map (fun t => (t.code,newRoleId t.code)) ∧
      db' = {db with identity := {db.identity with
        tenantRoles := roles
        rolePermissions := granted}} := by
  simp only [cloneTemplatesForTenant,bind_ok,read_ok,require_ok,zoom_ok,insertRows_ok,
    pure_ok] at h
  obtain ⟨_,_,⟨rfl,rfl⟩,_,_,⟨hcodes,rfl⟩,_,_,⟨-,rfl⟩,_,_,⟨roles,hroles,rfl⟩,_,_,
    ⟨granted,hgranted,rfl⟩,rfl,rfl⟩ := h
  exact ⟨_,roles,granted,rfl,hcodes,hroles,hgranted,rfl,rfl⟩

theorem createTenant_effect {tenant : TenantModel} {newRoleId : String → UUID7}
    (h : createTenant tenant newRoleId db = .ok (u,db')) :
    RolloutEffect manifest db (.createTenant tenant newRoleId) db' := by
  obtain ⟨_,db₁,h₁,hk₁⟩ := bind_ok.mp h
  obtain ⟨t,ht,rfl⟩ := zoom_ok.mp h₁
  obtain ⟨clones,db₂,h₂,hk₂⟩ := bind_ok.mp hk₁
  obtain ⟨-,rfl⟩ := pure_ok.mp hk₂
  obtain ⟨templates,roles,granted,-,-,hroles,hgranted,-,rfl⟩ := cloneTemplates_ok h₂
  refine .tenantAdded tenant newRoleId _
    ⟨insertRow_ok.mp ht,⟨_,hroles,?_⟩,⟨_,hgranted,?_⟩,rfl,rfl,rfl⟩
  · intro r hr
    obtain ⟨template,-,rfl⟩ := List.mem_map.mp hr
    rfl
  · intro p hp
    obtain ⟨template,-,hp⟩ := List.mem_flatMap.mp hp
    obtain ⟨pair,-,rfl⟩ := List.mem_map.mp hp
    rfl

theorem rolloutStep_effect (manifest : PermissionFeatureManifest) (op : RolloutOp)
    (db : RolloutDatabase) : RolloutEffect manifest db op (rolloutStep manifest op db) := by
  cases op with
  | reconcile newId => exact commit_of (.unchanged _) fun _ _ h => reconcile_effect h
  | beginTransition direction => exact commit_of (.unchanged _) fun _ _ h => begin_effect h
  | finalize direction generation =>
    exact commit_of (.unchanged _) fun _ _ h => finalize_effect h
  | claimTenant tenantId generation direction values =>
    exact commit_of (.unchanged _) fun _ _ h => claimTenant_effect h
  | claimBatch generation limit direction locked values =>
    exact commit_of (.unchanged _) fun _ _ h => claimBatch_effect h
  | apply direction tenantId generation =>
    refine commit_of (.unchanged _) fun _ _ h => ?_
    obtain ⟨s,ids,done⟩ := applyTenant_ok _ h
    exact .applied direction tenantId generation s ids _ done
  | createTenant tenant newRoleId =>
    exact commit_of (.unchanged _) fun _ _ h => createTenant_effect h

end LawyerAgent.PermissionRolloutSteps
