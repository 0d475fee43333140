import LawyerAgent.PermissionRolloutSteps

/-!
# Late applies of a rollout

An apply checks neither its claim nor its generation. As long as no apply
comes with a generation older than the one its tenant has had applied, the
applied generation of a tenant never goes back, and nothing but an apply of at
least that generation changes what the tenant's roles are granted.
-/

set_option autoImplicit false

namespace LawyerAgent.RolloutFencing
open Relational Common IdentityTables RolloutTables
open PermissionRollout PermissionRolloutSteps

def tenantGrants (tenantId : UUID7) (db : RolloutDatabase) : List TenantRolePermissionModel :=
  db.identity.rolePermissions.rows.filter fun p => p.tenantId == tenantId

def Referenced (db : RolloutDatabase) : Prop :=
  ∀ s ∈ db.tenantStates, ∃ t ∈ db.identity.tenants, t.id = s.tenantId

/-- An apply comes with a generation no older than the one applied. -/
def NotOlder : RolloutOp → RolloutDatabase → Prop
  | .apply _ tenantId generation, db => ∀ s ∈ db.tenantStates.rows,
      isState tenantId s = true → s.appliedRolloutGeneration ≤ generation
  | _, _ => True

instance (op : RolloutOp) (db : RolloutDatabase) : Decidable (NotOlder op db) := by
  cases op <;> unfold NotOlder <;> infer_instance

variable {manifest : PermissionFeatureManifest}

def SameTenant (s s' : PermissionFeatureTenantStateModel) : Prop := s'.tenantId = s.tenantId

theorem sameTenant_refl (s : PermissionFeatureTenantStateModel) : SameTenant s s := rfl

theorem states_tenant {op : RolloutOp} {db db' : RolloutDatabase}
    (h : RolloutEffect manifest db op db') :
    Evolves SameTenant (fun s => ∃ t ∈ db.identity.tenants, t.id = s.tenantId)
      db.tenantStates db'.tenantStates := by
  cases h with
  | unchanged => exact evolves_refl sameTenant_refl _
  | statesMoved _ t states =>
      exact evolves_mono (fun _ _ h => h.tenantId) (fun _ h => h.tenant) states
  | transition _ r r' t u feature moved row => exact evolves_refl sameTenant_refl _
  | applied direction tenantId generation s ids _ done =>
    have hsame : SameTenant s (appliedState direction generation manifest s) := rfl
    exact evolves_replaced sameTenant_refl hsame done.row
  | tenantAdded tenant newRoleId _ added =>
    rw [added.states]
    exact evolves_refl sameTenant_refl _

theorem tenants_kept {op : RolloutOp} {db db' : RolloutDatabase}
    (h : RolloutEffect manifest db op db') {t : TenantModel} (ht : t ∈ db.identity.tenants) :
    t ∈ db'.identity.tenants := by
  cases h with
  | unchanged => exact ht
  | statesMoved _ t states => exact ht
  | transition _ r r' t u feature moved row => exact ht
  | applied direction tenantId generation s ids _ done =>
    rw [done.frame]
    exact ht
  | tenantAdded tenant newRoleId _ added => exact (inserted_mem added.tenants).mpr (Or.inr ht)

theorem step_referenced (op : RolloutOp) (db : RolloutDatabase) (h : Referenced db) :
    Referenced (rolloutStep manifest op db) := by
  have heff := rolloutStep_effect manifest op db
  intro s' hs'
  rcases (states_tenant heff).came s' hs' with ⟨s,hs,-,htenant⟩ | ⟨⟨t,ht,hid⟩,-⟩
  · obtain ⟨t,ht,hid⟩ := h s hs
    exact ⟨t,tenants_kept heff ht,hid.trans htenant.symm⟩
  · exact ⟨t,tenants_kept heff ht,hid⟩

/-- The applied generation does not go back. -/
structure Later (s s' : PermissionFeatureTenantStateModel) : Prop where
  featureCode : s'.featureCode = s.featureCode
  tenantId : s'.tenantId = s.tenantId
  applied : s.appliedRolloutGeneration ≤ s'.appliedRolloutGeneration

theorem later_refl (s : PermissionFeatureTenantStateModel) : Later s s := ⟨rfl,rfl,le_refl _⟩

theorem later_trans (s t u : PermissionFeatureTenantStateModel) (h : Later s t)
    (k : Later t u) : Later s u :=
  ⟨k.featureCode.trans h.featureCode,k.tenantId.trans h.tenantId,h.applied.trans k.applied⟩

def StatesLater (db db' : RolloutDatabase) : Prop :=
  Evolves Later (fun _ => True) db.tenantStates db'.tenantStates

instance : Std.Refl StatesLater := ⟨fun _ => evolves_refl later_refl _⟩

instance : IsTrans RolloutDatabase StatesLater where
  trans := fun _ _ _ h k => evolves_trans later_trans (fun _ _ _ _ => trivial) h k

theorem step_later (op : RolloutOp) (db : RolloutDatabase) (hguard : NotOlder op db) :
    StatesLater db (rolloutStep manifest op db) := by
  have heff := rolloutStep_effect manifest op db
  generalize rolloutStep manifest op db = db' at heff
  cases heff with
  | unchanged => exact refl db
  | statesMoved _ t states =>
    exact evolves_mono (fun _ _ h => ⟨h.featureCode,h.tenantId,h.applied.ge⟩)
      (fun _ _ => trivial) states
  | transition _ r r' t u feature moved row => exact evolves_refl later_refl _
  | applied direction tenantId generation s ids _ done =>
    have hnext : Later s (appliedState direction generation manifest s) :=
      ⟨rfl,rfl,hguard s done.row.mem done.state⟩
    exact evolves_replaced later_refl hnext done.row
  | tenantAdded tenant newRoleId _ added =>
    rw [StatesLater,added.states]
    exact evolves_refl later_refl _

theorem regrant_other {direction : RolloutDirection} {tenantId otherId : UUID7}
    {roles : List TenantRoleModel} {ids : List UUID7} {rows : List TenantRolePermissionModel}
    (hne : tenantId ≠ otherId) :
    (regrant direction (roleGrants tenantId roles ids) rows).filter
      (fun p => p.tenantId == otherId) = rows.filter fun p => p.tenantId == otherId := by
  have hgrants : ∀ g ∈ roleGrants tenantId roles ids, g.tenantId = tenantId := by
    intro g hg
    obtain ⟨role,-,hg⟩ := List.mem_flatMap.mp hg
    obtain ⟨id,-,rfl⟩ := List.mem_map.mp hg
    rfl
  cases direction with
  | activate =>
    have hnone : (roleGrants tenantId roles ids).filter (fun p => p.tenantId == otherId) = [] := by
      rw [List.filter_eq_nil_iff]
      intro g hg
      rw [hgrants g hg]
      simpa using hne
    simp only [regrant,List.filter_append,hnone,List.nil_append]
  | deactivate =>
    simp only [regrant,List.filter_filter]
    refine List.filter_congr fun p _ => ?_
    by_cases hp : p.tenantId = otherId
    · have hkeep : ((roleGrants tenantId roles ids).any fun g => g.tenantId == p.tenantId &&
          g.tenantRoleId == p.tenantRoleId && g.permissionId == p.permissionId) = false := by
        rw [List.any_eq_false]
        intro g hg
        have : g.tenantId ≠ p.tenantId := by
          rw [hgrants g hg,hp]
          exact hne
        simp [this]
      rw [hkeep,Bool.not_false,Bool.and_true]
    · simp [hp]

theorem step_grants {op : RolloutOp} {db : RolloutDatabase} (h : Referenced db)
    {s : PermissionFeatureTenantStateModel} (hs : s ∈ db.tenantStates)
    (hne : tenantGrants s.tenantId (rolloutStep manifest op db) ≠ tenantGrants s.tenantId db) :
    ∃ direction generation, op = .apply direction s.tenantId generation := by
  have heff := rolloutStep_effect manifest op db
  generalize rolloutStep manifest op db = db' at heff hne
  cases heff with
  | unchanged => exact absurd rfl hne
  | statesMoved _ t states => exact absurd rfl hne
  | transition _ r r' t u feature moved row => exact absurd rfl hne
  | applied direction tenantId generation u ids _ done =>
    by_cases htenant : tenantId = s.tenantId
    · exact ⟨direction,generation,by rw [htenant]⟩
    · refine absurd ?_ hne
      simp only [tenantGrants,done.granted]
      exact regrant_other htenant
  | tenantAdded tenant newRoleId _ added =>
    obtain ⟨t,ht,hid⟩ := h s hs
    obtain ⟨rows,hrows,htenant⟩ := added.granted
    have hfresh : tenant.id ≠ s.tenantId := by
      rw [← hid]
      exact (inserted_fresh added.tenants ht).1
    refine absurd ?_ hne
    have hnone : rows.filter (fun p => p.tenantId == s.tenantId) = [] := by
      rw [List.filter_eq_nil_iff]
      intro p hp
      rw [htenant p hp]
      simpa using hfresh
    simp only [tenantGrants,hrows,List.filter_append,hnone,List.nil_append]

theorem late_applies (start : RolloutDatabase) (hstart : Referenced start)
    (earlier later : List RolloutOp)
    (hguard : Along (rolloutStep manifest) NotOlder (earlier++later) start) :
    let middle := run (rolloutStep manifest) earlier start
    let final := run (rolloutStep manifest) later middle
    ∀ s ∈ middle.tenantStates, s.featureCode = featureCode →
      (∃ s' ∈ final.tenantStates, s'.id = s.id ∧ s'.tenantId = s.tenantId ∧
        s.appliedRolloutGeneration ≤ s'.appliedRolloutGeneration) ∧
      ∀ op, NotOlder op final →
        tenantGrants s.tenantId (rolloutStep manifest op final) ≠ tenantGrants s.tenantId final →
        ∃ direction generation, op = .apply direction s.tenantId generation ∧
          s.appliedRolloutGeneration ≤ generation := by
  intro middle final s hs hfeature
  obtain ⟨-,hlater⟩ := (along_append _ _ _ _ _).mp hguard
  have hmoved : StatesLater middle final := guarded_related step_later later middle hlater
  have hreferenced : Referenced final :=
    run_invariant step_referenced later middle (run_invariant step_referenced earlier start hstart)
  obtain ⟨s',hs',hid,hnext⟩ := hmoved.kept s hs
  refine ⟨⟨s',hs',hid,hnext.tenantId,hnext.applied⟩,fun op hop hne => ?_⟩
  rw [← hnext.tenantId] at hne
  obtain ⟨direction,generation,rfl⟩ := step_grants hreferenced hs' hne
  have hstate : isState s'.tenantId s' = true := by
    simp [isState,hnext.featureCode.trans hfeature]
  exact ⟨direction,generation,by rw [hnext.tenantId],
    hnext.applied.trans (hop s' hs' hstate)⟩

def sampleTenant : UUID7 := ⟨0,0,1⟩

def sampleRole : UUID7 := ⟨0,0,2⟩

def samplePermissions : Table permissionCatalog :=
  ⟨[⟨⟨0,0,3⟩,"ai_job.create",.active⟩,⟨⟨0,0,4⟩,"ai_job.read",.active⟩,
    ⟨⟨0,0,5⟩,"ai_job.cancel",.active⟩],by decide⟩

/-- One tenant with one built-in role, before any rollout. -/
def sampleStart : RolloutDatabase where
  identity := {
    users := .empty
    tenants := .single ⟨sampleTenant,"a","a",.lawFirm,.active,⟨0,0,6⟩,.approved,1⟩ rfl
    departments := .empty
    memberships := .empty
    permissions := samplePermissions
    tenantRoles := .single ⟨sampleRole,sampleTenant,none,"tenant_owner","a",false,.active,1⟩ rfl
    rolePermissions := .empty
    assignments := .empty}
  templates := .empty
  templatePermissions := .empty
  rollouts := .single ⟨featureCode,.catalogOnly,"ai-job-base-v1",0,0,1⟩ rfl
  tenantStates := .empty

def sampleValues : ClaimValues := ⟨fun _ => ⟨0,0,7⟩,0⟩

def sampleClaim (generation : ℕ) (direction : RolloutDirection) : RolloutOp :=
  .claimBatch generation 1 direction (fun _ => false) sampleValues

/-- Two workers claim the tenant; the second applies and the rollout goes on. -/
def slowWorkerRun : List RolloutOp :=
  [.reconcile fun _ => ⟨0,0,8⟩,.beginTransition .activate,sampleClaim 1 .activate,
   sampleClaim 1 .activate,.apply .activate sampleTenant 1,.finalize .activate 1,
   .beginTransition .deactivate,sampleClaim 2 .deactivate,
   .apply .deactivate sampleTenant 2]

def appliedGenerations (db : RolloutDatabase) : List ℕ :=
  db.tenantStates.rows.map fun s => s.appliedRolloutGeneration

theorem slow_worker_regresses :
    outcome (claimBatch 1 1 aiJobPermissionManifest .activate (fun _ => false) sampleValues)
      (run (rolloutStep aiJobPermissionManifest) (slowWorkerRun.take 2) sampleStart) =
        .ok [sampleTenant] ∧
    let db := run (rolloutStep aiJobPermissionManifest) slowWorkerRun sampleStart
    let db' := rolloutStep aiJobPermissionManifest (.apply .activate sampleTenant 1) db
    (appliedGenerations db = [2] ∧ (tenantGrants sampleTenant db).length = 0) ∧
    (appliedGenerations db' = [1] ∧ (tenantGrants sampleTenant db').length = 3) := by
  decide

theorem sampleStart_referenced : Referenced sampleStart := by
  intro s hs
  exact absurd hs (not_mem_empty s)

theorem prompt_workers_fenced :
    let middle := run (rolloutStep aiJobPermissionManifest) slowWorkerRun sampleStart
    let final := run (rolloutStep aiJobPermissionManifest) [] middle
    ∀ s ∈ middle.tenantStates, s.featureCode = featureCode →
      (∃ s' ∈ final.tenantStates, s'.id = s.id ∧ s'.tenantId = s.tenantId ∧
        s.appliedRolloutGeneration ≤ s'.appliedRolloutGeneration) ∧
      ∀ op, NotOlder op final →
        tenantGrants s.tenantId (rolloutStep aiJobPermissionManifest op final) ≠
          tenantGrants s.tenantId final →
        ∃ direction generation, op = .apply direction s.tenantId generation ∧
          s.appliedRolloutGeneration ≤ generation :=
  late_applies sampleStart sampleStart_referenced slowWorkerRun [] (by decide)

end LawyerAgent.RolloutFencing
