import LawyerAgent.RolloutFencing

/-!
# What a finalized rollout has reached

Finalizing moves the feature's row and looks at no tenant. While workers apply
only generations that were begun in their direction, the bookkeeping of a
tenant tells what its roles are granted; so a rollout is finalized over
converged tenants exactly when none is pending.
-/

set_option autoImplicit false

namespace LawyerAgent.RolloutConvergence
open Relational Common IdentityTables RolloutTables
open PermissionRollout PermissionRolloutSteps
open RolloutFencing

/-- Transitions alternate and the first one activates. -/
def directionOf (generation : ℕ) : RolloutDirection :=
  if generation % 2 = 1 then .activate else .deactivate

/-- An apply comes with a generation that was begun in its direction. -/
def Begun : RolloutOp → RolloutDatabase → Prop
  | .apply direction _ generation, db => 1 ≤ generation ∧ direction = directionOf generation ∧
      ∀ r ∈ db.rollouts.rows, isFeature r = true → generation ≤ r.rolloutGeneration
  | _, _ => True

instance (op : RolloutOp) (db : RolloutDatabase) : Decidable (Begun op db) :=
  match op with
  | .apply .. => inferInstanceAs (Decidable (_ ∧ _))
  | .reconcile _ | .beginTransition _ | .finalize .. | .claimTenant .. | .claimBatch ..
  | .createTenant .. => inferInstanceAs (Decidable True)

variable {manifest : PermissionFeatureManifest}

/-- All of the rollout's permissions, or none of them. -/
def Granted (manifest : PermissionFeatureManifest) (tenantId : UUID7) (d : Identity) :
    RolloutDirection → Prop
  | .activate => ∀ role ∈ targetRoles tenantId manifest d, ∀ code ∈ manifest.permissionCodes,
      ∃ id, catalogId d code = some id ∧ ⟨tenantId,role.id,id⟩ ∈ d.rolePermissions
  | .deactivate => ∀ role ∈ targetRoles tenantId manifest d, ∀ code ∈ manifest.permissionCodes,
      ∀ id, catalogId d code = some id → ¬⟨tenantId,role.id,id⟩ ∈ d.rolePermissions

variable {direction : RolloutDirection} {ids : List UUID7}

theorem granted_kept {tenantId : UUID7} {d d' : Identity}
    (hpermissions : d'.permissions = d.permissions)
    (hroles : ∀ role, role ∈ targetRoles tenantId manifest d' → role ∈ targetRoles tenantId
      manifest d)
    (hgranted : ∀ p : TenantRolePermissionModel, p.tenantId = tenantId → (p ∈ d'.rolePermissions ↔
      p ∈ d.rolePermissions))
    (h : Granted manifest tenantId d direction) : Granted manifest tenantId d' direction := by
  have hcatalog : ∀ code, catalogId d' code = catalogId d code := by
    intro code
    rw [catalogId,catalogId,hpermissions]
  cases direction with
  | activate =>
    intro role hrole code hcode
    obtain ⟨id,hid,hmem⟩ := h role (hroles role hrole) code hcode
    exact ⟨id,(hcatalog code).trans hid,(hgranted _ rfl).mpr hmem⟩
  | deactivate =>
    intro role hrole code hcode id hid hmem
    rw [hcatalog code] at hid
    exact h role (hroles role hrole) code hcode id hid ((hgranted _ rfl).mp hmem)

theorem catalogIds_mem {d : Identity} {codes : List String} {code : String}
    (h : catalogIds d codes = some ids) (hcode : code ∈ codes) :
    ∃ id ∈ ids, catalogId d code = some id := by
  induction codes generalizing ids with
  | nil => cases hcode
  | cons first codes ih =>
    simp only [catalogIds,Option.bind_eq_bind,Option.bind_eq_some_iff,Option.some.injEq] at h
    obtain ⟨id,hid,rest,hrest,rfl⟩ := h
    rcases List.mem_cons.mp hcode with rfl | hcode
    · exact ⟨id,by simp,hid⟩
    · obtain ⟨id',hmem,hid'⟩ := ih hrest hcode
      exact ⟨id',by simp [hmem],hid'⟩

theorem mem_roleGrants {tenantId : UUID7} {roles : List TenantRoleModel}
    {p : TenantRolePermissionModel} : p ∈ roleGrants tenantId roles ids ↔
      ∃ role ∈ roles, ∃ id ∈ ids, p = ⟨tenantId,role.id,id⟩ := by
  simp [roleGrants,eq_comm]

theorem applied_granted {tenantId : UUID7} {generation : ℕ} {s : PermissionFeatureTenantStateModel}
    {db db' : RolloutDatabase} (h : Applied direction tenantId generation manifest s ids db db') :
    Granted manifest tenantId db'.identity direction := by
  have hcatalog : ∀ code, catalogId db'.identity code = catalogId db.identity code := by
    intro code
    rw [h.frame]
    rfl
  have hroles : targetRoles tenantId manifest db'.identity =
      targetRoles tenantId manifest db.identity := by
    rw [h.frame]
    rfl
  have hgranted := h.granted
  cases direction with
  | activate =>
    intro role hrole code hcode
    rw [hroles] at hrole
    obtain ⟨id,hid,hcat⟩ := catalogIds_mem h.catalog hcode
    refine ⟨id,(hcatalog code).trans hcat,?_⟩
    rw [mem_rows,hgranted]
    exact List.mem_append_left _ (mem_roleGrants.mpr ⟨role,hrole,id,hid,rfl⟩)
  | deactivate =>
    intro role hrole code hcode id hid hmem
    rw [hroles] at hrole
    rw [hcatalog code] at hid
    have hids : id ∈ ids := (mem_catalogIds h.catalog).mpr ⟨code,hcode,hid⟩
    rw [mem_rows,hgranted] at hmem
    have hkept := (List.mem_filter.mp hmem).2
    simp only [Bool.not_eq_true',List.any_eq_false] at hkept
    exact hkept _ (mem_roleGrants.mpr ⟨role,hrole,id,hids,rfl⟩) (by simp)

def Phased (r : PermissionFeatureRolloutModel) : Prop :=
  match r.phase with
  | .catalogOnly => directionOf r.rolloutGeneration = .deactivate
  | .activating => directionOf r.rolloutGeneration = .activate
  | .activated => directionOf r.rolloutGeneration = .activate
  | .deactivating => directionOf r.rolloutGeneration = .deactivate ∧ 0 < r.rolloutGeneration

structure Settled (manifest : PermissionFeatureManifest) (d : Identity)
    (s : PermissionFeatureTenantStateModel) : Prop where
  phase : s.phase = appliedPhase (directionOf s.appliedRolloutGeneration)
  granted : Granted manifest s.tenantId d (directionOf s.appliedRolloutGeneration)

structure Consistent (manifest : PermissionFeatureManifest) (db : RolloutDatabase) : Prop where
  referenced : Referenced db
  phased : ∀ r ∈ db.rollouts, isFeature r = true → Phased r
  settled : ∀ s ∈ db.tenantStates, s.featureCode = featureCode →
    s.appliedRolloutGeneration = 0 ∨ Settled manifest db.identity s
  bounded : ∀ s ∈ db.tenantStates, s.featureCode = featureCode →
    ∀ r ∈ db.rollouts, isFeature r = true → s.appliedRolloutGeneration ≤ r.rolloutGeneration

/-- The tables as the migration leaves them. -/
structure Migrated (db : RolloutDatabase) : Prop where
  referenced : Referenced db
  rollouts : ∀ r ∈ db.rollouts, r.phase = .catalogOnly ∧ r.rolloutGeneration = 0
  states : ∀ s ∈ db.tenantStates, s.appliedRolloutGeneration = 0

theorem migrated_consistent {db : RolloutDatabase} (h : Migrated db) : Consistent manifest db where
  referenced := h.referenced
  phased := by
    intro r hr _
    obtain ⟨hphase,hgeneration⟩ := h.rollouts r hr
    rw [Phased,hphase,hgeneration]
    rfl
  settled := fun s hs _ => Or.inl (h.states s hs)
  bounded := by
    intro s hs _ r _ _
    rw [h.states s hs]
    exact Nat.zero_le _

theorem transition_phased {r r' : PermissionFeatureRolloutModel} {op : RolloutOp}
    (h : Transition r op r') (hr : Phased r) :
    Phased r' ∧ r.rolloutGeneration ≤ r'.rolloutGeneration := by
  cases h with
  | begun direction phase =>
    refine ⟨?_,Nat.le_succ _⟩
    cases direction with
    | activate =>
      have hphase : r.phase = .catalogOnly := phase
      simp only [Phased,hphase,directionOf] at hr
      simp only [Phased,begunRollout,RolloutDirection.during,directionOf]
      grind
    | deactivate =>
      have hphase : r.phase = .activated := phase
      simp only [Phased,hphase,directionOf] at hr
      simp only [Phased,begunRollout,RolloutDirection.during,directionOf]
      grind
  | finalized direction phase =>
    refine ⟨?_,le_refl _⟩
    cases direction with
    | activate =>
      have hphase : r.phase = .activating := phase
      simp only [Phased,hphase] at hr
      simpa only [Phased,finalizedRollout,RolloutDirection.after] using hr
    | deactivate =>
      have hphase : r.phase = .deactivating := phase
      simp only [Phased,hphase] at hr
      simpa only [Phased,finalizedRollout,RolloutDirection.after] using hr.1

theorem tenantGrants_mem {tenantId : UUID7} {db db' : RolloutDatabase}
    (h : tenantGrants tenantId db' = tenantGrants tenantId db) (p : TenantRolePermissionModel)
    (hp : p.tenantId = tenantId) :
    p ∈ db'.identity.rolePermissions ↔ p ∈ db.identity.rolePermissions := by
  have hmem : ∀ d : RolloutDatabase, p ∈ tenantGrants tenantId d ↔
      p ∈ d.identity.rolePermissions := by
    intro d
    simp [tenantGrants,mem_rows,hp]
  rw [← hmem db',← hmem db,h]

theorem settled_kept {s s' : PermissionFeatureTenantStateModel} {d d' : Identity}
    (hphase : s'.phase = s.phase) (htenant : s'.tenantId = s.tenantId)
    (happlied : s'.appliedRolloutGeneration = s.appliedRolloutGeneration)
    (hgranted : ∀ direction, Granted manifest s.tenantId d direction →
      Granted manifest s.tenantId d' direction)
    (h : Settled manifest d s) : Settled manifest d' s' := by
  constructor
  · rw [hphase,happlied]
    exact h.phase
  · rw [htenant,happlied]
    exact hgranted _ h.granted

theorem step_consistent (op : RolloutOp) (db : RolloutDatabase) (hguard : Begun op db)
    (h : Consistent manifest db) : Consistent manifest (rolloutStep manifest op db) := by
  have hreferenced : Referenced (rolloutStep manifest op db) := step_referenced op db h.referenced
  have heff := rolloutStep_effect manifest op db
  generalize rolloutStep manifest op db = db' at heff hreferenced
  cases heff with
  | unchanged => exact h
  | statesMoved _ t states =>
    refine ⟨hreferenced,h.phased,?_,?_⟩
    · intro s' hs' hfeature
      rcases states.came s' hs' with ⟨s,hs,-,hkept⟩ | ⟨hnew,-⟩
      · rcases h.settled s hs (hkept.featureCode.symm.trans hfeature) with hzero | hsettled
        · exact Or.inl (hkept.applied.trans hzero)
        · exact Or.inr (settled_kept hkept.phase hkept.tenantId hkept.applied
            (fun _ hg => hg) hsettled)
      · exact Or.inl hnew.applied
    · intro s' hs' hfeature r hr hf
      rcases states.came s' hs' with ⟨s,hs,-,hkept⟩ | ⟨hnew,-⟩
      · rw [hkept.applied]
        exact h.bounded s hs (hkept.featureCode.symm.trans hfeature) r hr hf
      · rw [hnew.applied]
        exact Nat.zero_le _
  | transition _ r r' t u feature moved row =>
    obtain ⟨hphased,hgeneration⟩ := transition_phased moved (h.phased r row.mem feature)
    refine ⟨hreferenced,?_,h.settled,?_⟩
    · intro x hx hf
      rcases (replaced_mem row).mp hx with rfl | ⟨hx,-⟩
      · exact hphased
      · exact h.phased x hx hf
    · intro s hs hfeature x hx hf
      rcases (replaced_mem row).mp hx with rfl | ⟨hx,-⟩
      · exact (h.bounded s hs hfeature r row.mem feature).trans hgeneration
      · exact h.bounded s hs hfeature x hx hf
  | applied direction tenantId generation s ids _ done =>
    obtain ⟨hpositive,hdirection,hbegun⟩ := hguard
    have hrollouts : db'.rollouts = db.rollouts := by rw [done.frame]
    refine ⟨hreferenced,?_,?_,?_⟩
    · rw [hrollouts]
      exact h.phased
    · intro x hx hfeature
      rcases (replaced_mem done.row).mp hx with rfl | ⟨hx,hne⟩
      · refine Or.inr ⟨?_,?_⟩
        · change appliedPhase direction = appliedPhase (directionOf generation)
          rw [hdirection]
        · have htenant : s.tenantId = tenantId := by
            have := done.state
            simp only [isState,Bool.and_eq_true,beq_iff_eq] at this
            exact this.2
          change Granted manifest s.tenantId db'.identity (directionOf generation)
          rw [htenant,← hdirection]
          exact applied_granted done
      · rcases h.settled x hx hfeature with hzero | hsettled
        · exact Or.inl hzero
        · refine Or.inr (settled_kept rfl rfl rfl ?_ hsettled)
          -- another row of the feature belongs to another tenant
          have hother : tenantId ≠ x.tenantId := by
            rintro rfl
            have hs := done.state
            simp only [isState,Bool.and_eq_true,beq_iff_eq] at hs
            have hclash : permissionFeatureTenantStates.clash x s = true := by
              simp [permissionFeatureTenantStates,hfeature,hs.1,hs.2]
            exact hne (congrArg _ (eq_of_clash hx done.row.mem hclash))
          have hgrants : tenantGrants x.tenantId db' = tenantGrants x.tenantId db := by
            simp only [tenantGrants,done.granted]
            exact regrant_other hother
          intro d hd
          refine granted_kept ?_ ?_ (tenantGrants_mem hgrants) hd
          · rw [done.frame]
          · rw [done.frame]
            exact fun _ hrole => hrole
    · intro x hx hfeature r hr hf
      rw [hrollouts] at hr
      rcases (replaced_mem done.row).mp hx with rfl | ⟨hx,-⟩
      · exact hbegun r hr hf
      · exact h.bounded x hx hfeature r hr hf
  | tenantAdded tenant newRoleId _ added =>
    refine ⟨hreferenced,?_,?_,?_⟩
    · rw [added.rollouts]
      exact h.phased
    · rw [added.states]
      intro s hs hfeature
      rcases h.settled s hs hfeature with hzero | hsettled
      · exact Or.inl hzero
      · refine Or.inr (settled_kept rfl rfl rfl ?_ hsettled)
        obtain ⟨t,ht,hid⟩ := h.referenced s hs
        have hfresh : tenant.id ≠ s.tenantId := by
          rw [← hid]
          exact (inserted_fresh added.tenants ht).1
        obtain ⟨roles,hroles,hrolesOf⟩ := added.roles
        obtain ⟨rows,hrows,hrowsOf⟩ := added.granted
        intro d hd
        refine granted_kept added.permissions ?_ ?_ hd
        · intro role hrole
          obtain ⟨hmem,htarget⟩ := mem_selectRows.mp hrole
          rw [mem_rows,hroles,List.mem_append] at hmem
          rcases hmem with hnew | hold
          · simp only [isTargetRole,Bool.and_eq_true,beq_iff_eq] at htarget
            exact absurd ((hrolesOf role hnew).symm.trans htarget.1.1) hfresh
          · exact mem_selectRows.mpr ⟨hold,htarget⟩
        · intro p hp
          rw [mem_rows,mem_rows,hrows,List.mem_append]
          refine or_iff_right fun hnew => ?_
          exact hfresh ((hrowsOf p hnew).symm.trans hp)
    · rw [added.states,added.rollouts]
      exact h.bounded

/-- Every tenant has the generation applied, and its roles show it. -/
def Converged (direction : RolloutDirection) (generation : ℕ)
    (manifest : PermissionFeatureManifest) (db : RolloutDatabase) : Prop :=
  ∀ s ∈ db.tenantStates, s.featureCode = featureCode →
    s.phase = appliedPhase direction ∧ s.appliedRolloutGeneration = generation ∧
    Granted manifest s.tenantId db.identity direction

def NothingPending (generation : ℕ) (db : RolloutDatabase) : Prop :=
  ∀ s ∈ db.tenantStates, pendingState generation s = false

theorem finalize_row {generation : ℕ} {u : Unit} {db db' : RolloutDatabase}
    (h : finalizePhaseTransition direction generation manifest db = .ok (u,db')) :
    ∃ r ∈ db.rollouts, isFeature r = true ∧ r.rolloutGeneration = generation ∧
      r.phase = direction.during := by
  obtain ⟨r,db₁,h₁,hk₁⟩ := bind_ok.mp h
  obtain ⟨hr,rfl⟩ := loadGlobal_ok.mp h₁
  obtain ⟨_,db₂,h₂,hk₂⟩ := bind_ok.mp hk₁
  obtain ⟨hgeneration,rfl⟩ := require_ok.mp h₂
  obtain ⟨_,db₃,h₃,-⟩ := bind_ok.mp hk₂
  obtain ⟨hphase,-⟩ := require_ok.mp h₃
  obtain ⟨hmem,hfeature⟩ := selectRow_some hr
  exact ⟨r,hmem,hfeature,hgeneration,hphase⟩

theorem phased_during {r : PermissionFeatureRolloutModel} (h : Phased r)
    (hphase : r.phase = direction.during) :
    directionOf r.rolloutGeneration = direction ∧ 0 < r.rolloutGeneration := by
  cases direction with
  | activate =>
    simp only [RolloutDirection.during] at hphase
    simp only [Phased,hphase] at h
    refine ⟨h,Nat.pos_of_ne_zero fun hzero => ?_⟩
    rw [hzero] at h
    cases h
  | deactivate =>
    simp only [RolloutDirection.during] at hphase
    simpa only [Phased,hphase] using h

/-- Every finalize that goes through, in every run. -/
theorem finalized_over_converged (start : RolloutDatabase) (hstart : Migrated start)
    (ops : List RolloutOp) (hworkers : Along (rolloutStep manifest) Begun ops start)
    (direction : RolloutDirection) (generation : ℕ) (finalized : RolloutDatabase)
    (hfinalize : finalizePhaseTransition direction generation manifest
      (run (rolloutStep manifest) ops start) = .ok ((),finalized)) :
    Converged direction generation manifest (run (rolloutStep manifest) ops start) ↔
      NothingPending generation (run (rolloutStep manifest) ops start) := by
  have h : Consistent manifest (run (rolloutStep manifest) ops start) :=
    guarded_invariant step_consistent ops start hworkers (migrated_consistent hstart)
  obtain ⟨r,hr,hfeature,rfl,hphase⟩ := finalize_row hfinalize
  obtain ⟨hdirection,hpositive⟩ := phased_during (h.phased r hr hfeature) hphase
  constructor
  · intro hconverged s hs
    by_cases hcode : s.featureCode = featureCode
    · simp [pendingState,(hconverged s hs hcode).2.1]
    · simp [pendingState,hcode]
  · intro hnone s hs hcode
    have hle := h.bounded s hs hcode r hr hfeature
    have hge : r.rolloutGeneration ≤ s.appliedRolloutGeneration := by
      have := hnone s hs
      simpa [pendingState,hcode] using this
    have hgeneration : s.appliedRolloutGeneration = r.rolloutGeneration := le_antisymm hle hge
    rcases h.settled s hs hcode with hzero | hsettled
    · omega
    · have hp := hsettled.phase
      have hg := hsettled.granted
      rw [hgeneration,hdirection] at hp hg
      exact ⟨hp,hgeneration,hg⟩

def begunRun : List RolloutOp := [.reconcile fun _ => ⟨0,0,8⟩,.beginTransition .activate]

theorem finalized_while_pending :
    let db := run (rolloutStep aiJobPermissionManifest) begunRun sampleStart
    let db' := rolloutStep aiJobPermissionManifest (.finalize .activate 1) db
    outcome (finalizePhaseTransition .activate 1 aiJobPermissionManifest) db = .ok () ∧
    (db'.rollouts.rows.map fun r => r.phase) = [.activated] ∧
    (db.tenantStates.rows.map fun s => (s.tenantId,s.appliedRolloutGeneration,s.phase)) =
      [(sampleTenant,0,.catalogOnly)] ∧
    (targetRoles sampleTenant aiJobPermissionManifest db'.identity).length = 1 ∧
    (tenantGrants sampleTenant db').length = 0 := by
  decide

theorem sampleStart_migrated : Migrated sampleStart where
  referenced := sampleStart_referenced
  rollouts := by
    intro r hr
    obtain rfl := List.mem_singleton.mp hr
    exact ⟨rfl,rfl⟩
  states := fun s hs => absurd hs (not_mem_empty s)

theorem appliedRun_converged :
    Converged .activate 1 aiJobPermissionManifest
      (run (rolloutStep aiJobPermissionManifest) (slowWorkerRun.take 5) sampleStart) ↔
    NothingPending 1
      (run (rolloutStep aiJobPermissionManifest) (slowWorkerRun.take 5) sampleStart) :=
  finalized_over_converged sampleStart sampleStart_migrated (slowWorkerRun.take 5)
    (by decide) .activate 1 _ (outcome_ok (by decide))

end LawyerAgent.RolloutConvergence

namespace LawyerAgent.RolloutRetry
open Relational Common IdentityTables RolloutTables
open PermissionRollout PermissionRolloutSteps
open RolloutFencing RolloutConvergence

structure ActivationReady (tenantId : UUID7) (generation : ℕ) (db : RolloutDatabase) : Prop where
  state : ∃ s ∈ db.tenantStates, isState tenantId s = true ∧
    generation ≤ s.targetRolloutGeneration ∧ s.version < integerMax
  catalog : ∀ code ∈ aiJobPermissionManifest.permissionCodes,
    ∃ p ∈ db.identity.permissions, p.code = code
  ungranted : Granted aiJobPermissionManifest tenantId db.identity .deactivate

variable {d : Identity} {tenantId : UUID7} {generation : ℕ}

theorem catalogId_some {code : String} {id : UUID7} (h : catalogId d code = some id) :
    ∃ p ∈ d.permissions, p.code = code ∧ p.id = id := by
  obtain ⟨p,hp,rfl⟩ := Option.map_eq_some_iff.mp h
  obtain ⟨hmem,hcode⟩ := selectRow_some hp
  exact ⟨p,hmem,eq_of_beq hcode,rfl⟩

theorem catalogId_exists {code : String} (h : ∃ p ∈ d.permissions, p.code = code) :
    ∃ id, catalogId d code = some id := by
  obtain ⟨p,hp,rfl⟩ := h
  cases hs : selectRow (fun q => q.code == p.code) d.permissions with
  | none =>
    have := selectRow_none.mp hs p hp
    simp at this
  | some q => exact ⟨q.id,by rw [catalogId,hs]; rfl⟩

theorem catalogIds_exists {codes : List String}
    (h : ∀ code ∈ codes, ∃ p ∈ d.permissions, p.code = code) :
    ∃ ids, catalogIds d codes = some ids := by
  induction codes with
  | nil => exact ⟨[],rfl⟩
  | cons code codes ih =>
    obtain ⟨id,hid⟩ := catalogId_exists (h code (by simp))
    obtain ⟨ids,hids⟩ := ih fun c hc => h c (by simp [hc])
    exact ⟨id::ids,by simp [catalogIds,hid,hids]⟩

theorem catalogIds_distinct {codes : List String} {ids : List UUID7} (hcodes : codes.Nodup)
    (h : catalogIds d codes = some ids) : ids.Nodup := by
  induction codes generalizing ids with
  | nil =>
    cases h
    exact List.nodup_nil
  | cons code codes ih =>
    simp only [catalogIds,Option.bind_eq_bind,Option.bind_eq_some_iff,Option.some.injEq] at h
    obtain ⟨id,hid,rest,hrest,rfl⟩ := h
    obtain ⟨hnew,hcodes⟩ := List.nodup_cons.mp hcodes
    refine List.nodup_cons.mpr ⟨fun hmem => ?_,ih hcodes hrest⟩
    obtain ⟨code',hcode',hid'⟩ := (mem_catalogIds hrest).mp hmem
    obtain ⟨p,hp,rfl,rfl⟩ := catalogId_some hid
    obtain ⟨q,hq,rfl,hqp⟩ := catalogId_some hid'
    rw [eq_of_key hq hp hqp] at hcode'
    exact hnew hcode'

theorem roleGrants_apart {roles : List TenantRoleModel} {ids : List UUID7}
    (hroles : roles.Pairwise fun r s => r.id ≠ s.id) (hids : ids.Nodup) :
    (roleGrants tenantId roles ids).Pairwise (Apart tenantRolePermissions) := by
  rw [roleGrants,List.pairwise_flatMap]
  constructor
  · intro role _
    rw [List.pairwise_map]
    refine hids.imp fun hne => ⟨?_,rfl,rfl⟩
    simpa [tenantRolePermissions] using hne
  · refine hroles.imp fun hne p hp q hq => ⟨?_,rfl,rfl⟩
    obtain ⟨_,-,rfl⟩ := List.mem_map.mp hp
    obtain ⟨_,-,rfl⟩ := List.mem_map.mp hq
    simp [tenantRolePermissions,hne]

theorem targetRoles_distinct (tenantId : UUID7) (manifest : PermissionFeatureManifest)
    (d : Identity) : (targetRoles tenantId manifest d).Pairwise fun r s => r.id ≠ s.id :=
  List.Pairwise.filter _ (d.tenantRoles.legal.2.imp fun h => h.1)

theorem apart_iff {p q : TenantRolePermissionModel} :
    Apart tenantRolePermissions p q ↔ p ≠ q := by
  obtain ⟨t,r,i⟩ := p
  obtain ⟨t',r',i'⟩ := q
  simp [Apart,tenantRolePermissions]

theorem grants_legal {ids : List UUID7}
    (hids : catalogIds d aiJobPermissionManifest.permissionCodes = some ids) :
    Legal tenantRolePermissions
      (regrant .activate (roleGrants tenantId (targetRoles tenantId aiJobPermissionManifest d) ids)
        d.rolePermissions.rows) ↔ Granted aiJobPermissionManifest tenantId d .deactivate := by
  constructor
  · intro hlegal role hrole code hcode id hid hmem
    have hpair := hlegal.2
    rw [regrant,List.pairwise_append] at hpair
    have hgrant : ⟨tenantId,role.id,id⟩ ∈
        roleGrants tenantId (targetRoles tenantId aiJobPermissionManifest d) ids :=
      mem_roleGrants.mpr ⟨role,hrole,id,(mem_catalogIds hids).mpr ⟨code,hcode,hid⟩,rfl⟩
    exact apart_iff.mp (hpair.2.2 _ hgrant _ hmem) rfl
  · intro hnone
    refine ⟨fun _ _ => rfl,?_⟩
    rw [regrant,List.pairwise_append]
    refine ⟨roleGrants_apart (targetRoles_distinct _ _ _)
      (catalogIds_distinct (by decide) hids),d.rolePermissions.legal.2,?_⟩
    intro g hg p hp
    obtain ⟨role,hrole,id,hid,rfl⟩ := mem_roleGrants.mp hg
    obtain ⟨code,hcode,hcat⟩ := (mem_catalogIds hids).mp hid
    refine apart_iff.mpr ?_
    rintro rfl
    exact hnone role hrole code hcode id hcat hp

theorem applied_fits {direction : RolloutDirection} {manifest : PermissionFeatureManifest}
    {s : PermissionFeatureTenantStateModel} {t : Table permissionFeatureTenantStates} (hs : s ∈ t)
    (hgeneration : generation ≤ s.targetRolloutGeneration) (hversion : s.version < integerMax) :
    Fits permissionFeatureTenantStates s (appliedState direction generation manifest s) := by
  have hc := checked hs
  simp only [permissionFeatureTenantStates,Bool.and_eq_true,decide_eq_true_eq] at hc
  refine ⟨?_,rfl,fun _ => rfl,fun _ => rfl⟩
  simp only [permissionFeatureTenantStates,appliedState,claimOk,Option.all_none,
    Option.isNone_none,Bool.and_true,Bool.true_or,Bool.and_eq_true,decide_eq_true_eq]
  exact ⟨⟨hgeneration,hc.1.1.1.2⟩,hversion⟩

theorem activation_succeeds {db : RolloutDatabase} (h : ActivationReady tenantId generation db) :
    ∃ db', applyTenantActivation tenantId generation aiJobPermissionManifest db = .ok ((),db') := by
  obtain ⟨s,hs,hstate,hgeneration,hversion⟩ := h.state
  have hselected : selectRow (isState tenantId) db.tenantStates = some s := by
    refine selectRow_eq hs hstate fun x hx hxs => ?_
    simp only [isState,Bool.and_eq_true,beq_iff_eq] at hstate hxs
    refine eq_of_clash hx hs ?_
    simp [permissionFeatureTenantStates,hstate.1,hstate.2,hxs.1,hxs.2]
  obtain ⟨ids,hids⟩ := catalogIds_exists h.catalog
  have hlegal := (grants_legal hids).mpr h.ungranted
  have hfits : ∀ x ∈ db.tenantStates, (x.id == s.id) = true →
      Fits permissionFeatureTenantStates x
        (appliedState .activate generation aiJobPermissionManifest x) := by
    intro x hx hid
    rw [eq_of_key hx hs (eq_of_beq hid)]
    exact applied_fits hs hgeneration hversion
  obtain ⟨t,ht⟩ := updateRows_succeeds RolloutFailure.integrityError db.tenantStates hfits
  refine ⟨tenantStatesOf.set t (rolePermissionsOf.set ⟨_,hlegal⟩ db),?_⟩
  simp only [applyTenantActivation,bind_ok,lockState_ok,addTenantRolePermissions_ok,zoom_ok,
    pure_ok]
  exact ⟨s,db,⟨hselected,rfl⟩,(),_,⟨ids,⟨_,hlegal⟩,hids,rfl,rfl⟩,_,_,⟨t,ht,rfl⟩,trivial,rfl⟩

theorem activation_ready {db db' : RolloutDatabase}
    (h : applyTenantActivation tenantId generation aiJobPermissionManifest db = .ok ((),db')) :
    ActivationReady tenantId generation db := by
  obtain ⟨s,ids,done⟩ := applyTenant_ok .activate h
  have hchecked := checked ((replaced_mem done.row).mpr (Or.inl rfl))
  simp only [permissionFeatureTenantStates,appliedState,Bool.and_eq_true,
    decide_eq_true_eq] at hchecked
  have hlegal := db'.identity.rolePermissions.legal
  rw [done.granted,grants_legal done.catalog] at hlegal
  refine ⟨⟨s,done.row.mem,done.state,hchecked.1.1.1.1,hchecked.2⟩,?_,hlegal⟩
  intro code hcode
  obtain ⟨id,-,hid⟩ := catalogIds_mem done.catalog hcode
  obtain ⟨p,hp,hpc,-⟩ := catalogId_some hid
  exact ⟨p,hp,hpc⟩

theorem activation_again {db db' : RolloutDatabase}
    (h : applyTenantActivation tenantId generation aiJobPermissionManifest db = .ok ((),db')) :
    (commit (applyTenantActivation tenantId generation aiJobPermissionManifest)
      db').identity.rolePermissions = db'.identity.rolePermissions := by
  let P : RolloutDatabase → Prop := fun d =>
    d.identity.rolePermissions = db'.identity.rolePermissions
  refine commit_of (P := P) rfl fun _ db'' h' => ?_
  obtain ⟨s,ids,done⟩ := applyTenant_ok .activate h
  obtain ⟨s',ids',done'⟩ := applyTenant_ok .activate h'
  have hgranted := applied_granted done
  have hnone := (activation_ready h').ungranted
  have hempty : roleGrants tenantId
      (targetRoles tenantId aiJobPermissionManifest db'.identity) ids' = [] := by
    rw [List.eq_nil_iff_forall_not_mem]
    intro g hg
    obtain ⟨role,hrole,id,hid,rfl⟩ := mem_roleGrants.mp hg
    obtain ⟨code,hcode,hcat⟩ := (mem_catalogIds done'.catalog).mp hid
    obtain ⟨id',hid',hmem⟩ := hgranted role hrole code hcode
    rw [hcat,Option.some.injEq] at hid'
    subst hid'
    exact hnone role hrole code hcode id hcat hmem
  refine Table.ext ?_
  rw [done'.granted,hempty]
  rfl

theorem activation_retried (tenantId : UUID7) (generation : ℕ) (db : RolloutDatabase) :
    ((∃ db', applyTenantActivation tenantId generation aiJobPermissionManifest db =
        .ok ((),db')) ∧
      ∀ db', applyTenantActivation tenantId generation aiJobPermissionManifest db =
          .ok ((),db') →
        (commit (applyTenantActivation tenantId generation aiJobPermissionManifest)
          db').identity.rolePermissions = db'.identity.rolePermissions) ↔
      ActivationReady tenantId generation db := by
  constructor
  · rintro ⟨⟨db',h⟩,-⟩
    exact activation_ready h
  · exact fun h => ⟨activation_succeeds h,fun _ => activation_again⟩

/-- The second of two workers that claimed the same tenant. -/
theorem second_worker_fails :
    outcome (applyTenantActivation sampleTenant 1 aiJobPermissionManifest)
      (run (rolloutStep aiJobPermissionManifest) (slowWorkerRun.take 5) sampleStart) =
        .error .integrityError := by
  decide

end LawyerAgent.RolloutRetry
