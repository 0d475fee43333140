import LawyerAgent.AIJobService
import LawyerAgent.AIJobDelivery

/-!
# Grants and live roles

The grant of a submitted job records the owner-and-shared scope. When the
message arrives the scope is resolved from the live roles, and the job is
authorized only where the two agree.
-/

set_option autoImplicit false

namespace LawyerAgent.AIJobGrantScope
open Relational Common AIJobDomain AIJobTables
open AIJobRepository AIJobOperations AIJobOutbox
open AIJobSubmission AIJobAuthority AIJobRuntime
open AIJobService AIJobDelivery Tenancy
open IdentityTables

variable (sha256 : List UInt8 → Digest)

structure SameSubmission (j j' : AIJobModel) : Prop where
  tenant : j'.tenantId = j.tenantId
  user : j'.createdByUserId = j.createdByUserId
  membership : j'.createdByMembershipId = j.createdByMembershipId
  expiry : j'.expiresAt = j.expiresAt
  version : j.version ≤ j'.version

theorem sameSubmission_refl (j : AIJobModel) : SameSubmission j j := ⟨rfl,rfl,rfl,rfl,le_rfl⟩

theorem sameSubmission_trans (a b c : AIJobModel) (h : SameSubmission a b)
    (k : SameSubmission b c) : SameSubmission a c :=
  ⟨k.tenant.trans h.tenant,k.user.trans h.user,k.membership.trans h.membership,
    k.expiry.trans h.expiry,h.version.trans k.version⟩

/-- The submitted jobs are still there, and no grant has changed. -/
structure Kept (s s' : Store) : Prop where
  jobs : ∀ j ∈ s.jobs, ∃ j' ∈ s'.jobs, j'.id = j.id ∧ SameSubmission j j'
  grants : ∀ g ∈ s.grants, g ∈ s'.grants

theorem kept_of_eq {s s' : Store} (hj : s'.jobs = s.jobs) (hg : s'.grants = s.grants) :
    Kept s s' :=
  ⟨fun j h => ⟨j,hj ▸ h,rfl,sameSubmission_refl j⟩,fun _ h => hg ▸ h⟩

instance : Std.Refl Kept := ⟨fun _ => kept_of_eq rfl rfl⟩

instance : IsTrans Store Kept where
  trans := fun s t u h k => by
    refine ⟨fun j hj => ?_,fun g hg => k.grants g (h.grants g hg)⟩
    obtain ⟨j',hj',hid,hs⟩ := h.jobs j hj
    obtain ⟨j'',hj'',hid',hs'⟩ := k.jobs j' hj'
    exact ⟨j'',hj'',hid'.trans hid,sameSubmission_trans _ _ _ hs hs'⟩

theorem kept_replaced {j j' : AIJobModel} {s s' : Store} (h : Replaced j j' s.jobs s'.jobs)
    (hs : SameSubmission j j') (hg : s'.grants = s.grants) : Kept s s' := by
  have hev : Relational.Evolves SameSubmission (fun _ => False) s.jobs s'.jobs :=
    evolves_replaced sameSubmission_refl hs h
  exact ⟨hev.kept,fun _ h => hg ▸ h⟩

theorem jobEffect_kept {s s' : Store} (h : JobEffect s s') : Kept s s' := by
  cases h with
  | unchanged same =>
    rw [same]
    exact kept_of_eq rfl rfl
  | added graph timestamp job grant outbox frame =>
    exact ⟨fun j hj => ⟨j,(inserted_mem job).mpr (Or.inr hj),rfl,sameSubmission_refl j⟩,
      fun g hg => (inserted_mem grant).mpr (Or.inr hg)⟩
  | claimed r timestamp j guard job attempt frame =>
    exact kept_replaced job ⟨rfl,rfl,rfl,rfl,Nat.le_succ _⟩ (by rw [frame])
  | beaten r j guard job frame =>
    exact kept_replaced job ⟨rfl,rfl,rfl,rfl,Nat.le_succ _⟩ (by rw [frame])
  | finalized r j guard job attempts frame =>
    exact kept_replaced job ⟨rfl,rfl,rfl,rfl,Nat.le_succ _⟩ (by rw [frame])
  | ended tenantId jobId j j' guard target job frame =>
    refine kept_replaced job ?_ (by rw [frame])
    rcases target with ⟨failureClass,failureCode,now,rfl⟩ | ⟨now,rfl⟩
    · exact ⟨rfl,rfl,rfl,rfl,Nat.le_succ _⟩
    · exact ⟨rfl,rfl,rfl,rfl,Nat.le_succ _⟩

theorem publisher_kept (op : PublisherOp) (p : Publishers) :
    Kept p.store (publisherStep sha256 op p).store := by
  have heff := publisherStep_effect sha256 op p
  generalize publisherStep sha256 op p = p' at heff
  cases heff with
  | unchanged => exact kept_of_eq rfl rfl
  | handedOut batch claims p s' effect frame => exact kept_of_eq (by rw [frame]) (by rw [frame])
  | published k now claim o p s' held guard row frame =>
    exact kept_of_eq (by rw [frame]) (by rw [frame])
  | blocked k errorCode now claim o p s' held guard exhausted row frame =>
    exact kept_of_eq (by rw [frame]) (by rw [frame])
  | released k errorCode now claim o p s' held guard remaining row frame =>
    exact kept_of_eq (by rw [frame]) (by rw [frame])
  | job op p s' effect => exact jobEffect_kept effect

theorem first_kept {worker : WorkerService} {d : Delivery} {s s' : Store}
    {decision : DeliveryDecision} (h : FirstEffect sha256 worker d s decision s') :
    Kept s s' := by
  obtain ⟨u,heff,hframe⟩ := first_jobEffect h
  have hk := jobEffect_kept heff
  rw [hframe]
  exact ⟨hk.jobs,hk.grants⟩

def StoresKept (p q : Deliveries) : Prop := Kept p.store q.store

instance : Std.Refl StoresKept := ⟨fun p => refl (r := Kept) p.store⟩

instance : IsTrans Deliveries StoresKept :=
  ⟨fun _ _ _ h k => IsTrans.trans (r := Kept) _ _ _ h k⟩

theorem step_kept (op : DeliveryOp) (p : Deliveries) :
    StoresKept p (deliveryStep sha256 op p) := by
  have heff := deliveryStep_effect sha256 op p
  generalize deliveryStep sha256 op p = p' at heff
  cases heff with
  | unchanged => exact refl (r := StoresKept) p
  | publisher op => exact publisher_kept sha256 op.1 p.publishers
  | published k claim held => exact refl (r := StoresKept) p
  | received k copy sent => exact refl (r := StoresKept) p
  | recorded k worker identity ids now timestamp o decision s' held unseen effect =>
    exact first_kept sha256 effect

theorem run_kept (ops : List DeliveryOp) (p : Deliveries) :
    Kept p.store (run (deliveryStep sha256) ops p).store :=
  run_related (R := StoresKept) (step_kept sha256) ops p

/-- The submitter's user, tenant and membership are active, with the versions
recorded at submission; the roles are the same and creation is still permitted. -/
structure Unchanged (c : CreateAIJobFields) (identity identity' : Identity) (later : Time) :
    Prop where
  user : ∃ u ∈ identity'.users, u.id = c.userId ∧ u.status = .active ∧
    u.authVersion = c.authVersion
  tenant : ∃ t ∈ identity'.tenants, t.id = c.tenantId ∧ t.status = .active
  membership : ∃ m ∈ identity'.memberships, ∃ value : Membership,
    m.toMembershipFields = value.value ∧ m.tenantId = c.tenantId ∧ m.id = c.membershipId ∧
    m.userId = c.userId ∧ m.status = .active ∧
    inForce m.validFrom m.validUntil later = true ∧ m.authzVersion = c.authzVersion
  roles : ∀ code, code ∈ roleCodes c.tenantId c.membershipId identity' ↔
    code ∈ roleCodes c.tenantId c.membershipId identity
  permission : AIJobPermission.create.value ∈
    permissionCodes c.tenantId c.membershipId identity'

def Authorized (identity : Identity) (tenantId jobId : UUID7) (now : Time) (s : Store) : Prop :=
  ∃ snapshot, load identity tenantId jobId s = .ok (snapshot,s) ∧
    (authorize snapshot now).allowed = true

/-- No delivery for the job, whatever its message and its lookup, fails the job. -/
def Spared (identity : Identity) (tenantId jobId : UUID7) (now : Time) (s : Store) : Prop :=
  ∀ worker d existing, d.tenantId = tenantId → d.jobId = jobId → d.identity = identity →
    d.now = now → ∀ j ∈ s.jobs,
    ∀ j' ∈ (commit (acceptDeliveryAfter sha256 worker d existing) s).jobs,
    j.id = jobId → j'.id = jobId → j'.status = .failed → j.status = .failed

/-- The stored rows of a submission, at any later moment. -/
structure Stored (c : CreateAIJobFields) (ids : CreationIds) (now : Time) (s : Store)
    (j : AIJobModel) (g : AIJobExecutionGrantModel) : Prop where
  job : j ∈ s.jobs
  grant : g ∈ s.grants
  id : j.id = ids.jobId
  tenant : j.tenantId = c.tenantId
  user : j.createdByUserId = c.userId
  creator : j.createdByMembershipId = c.membershipId
  expiry : j.expiresAt = now+hours 1
  version : 1 ≤ j.version
  fields : g.toJobExecutionGrantFields = submittedGrant c ids now
  checked : firstError (jobExecutionGrantChecks (submittedGrant c ids now)) = none

variable {identity : Identity} {s : Store} {c : CreateAIJobFields} {g : AIJobExecutionGrantModel}
  {ids : CreationIds}

theorem submitted_stored {q : CreateCall} {accepted : AcceptedAIJob} {db db' : JobDatabase}
    {graph : NewAIJobGraph} (h : Submitted identity q accepted db db' graph) (hk : Kept db'.store
      s) :
    ∃ j g, Stored q.command.value q.ids q.now s j g := by
  obtain ⟨recordId,hbuilt⟩ := h.built
  obtain ⟨hjob,hgrant,-⟩ := submittedGraph_ok hbuilt
  obtain ⟨j,hj,hid,hsame⟩ := hk.jobs _ ((inserted_mem h.job).mpr (Or.inl rfl))
  have hg := hk.grants _ ((inserted_mem h.grant).mpr (Or.inl rfl))
  have hchecked := graph.value.grant.valid
  rw [hgrant] at hchecked
  simp only [jobModel,hjob] at hid hsame
  refine ⟨j,_,hj,hg,hid,hsame.tenant,hsame.user,hsame.membership,hsame.expiry,hsame.version,
    ?_,hchecked⟩
  simp only [grantModel,hgrant]
  rfl

theorem stored_job_reads {now : Time} {j : AIJobModel} (h : Stored c ids now s j g) :
    ∃ checkedJob, job j = .ok checkedJob ∧ checkedJob.value = j.toAIJobFields := by
  have hrow := checked h.job
  simp only [aiJobs,Bool.and_eq_true,decide_eq_true_eq] at hrow
  obtain ⟨⟨⟨⟨⟨⟨hmax,hcurrent⟩,-⟩,-⟩,-⟩,-⟩,-⟩ := hrow
  have hv := h.version
  have hall : ∀ check ∈ aiJobChecks j.toAIJobFields, check.1 = true := by
    simp only [aiJobChecks,AIJobDomain.maxAttempts,List.mem_cons,List.not_mem_nil,or_false]
    rintro check (rfl | rfl | rfl | rfl)
    · exact decide_eq_true hv
    · exact decide_eq_true hmax.1
    · exact decide_eq_true hmax.2
    · exact decide_eq_true hcurrent
  exact ⟨_,postInit_of hall,rfl⟩

theorem resolveScope_total (roleCodes : List String) :
    ∃ scope code unknown, resolveScope roleCodes = .ok (scope,code,unknown) := by
  by_cases h : roleCodes.filterMap roleScope = []
  · exact ⟨_,_,_,resolveScope_unknown h⟩
  · exact ⟨_,_,_,resolveScope_known h⟩

theorem loaded_authority {now later : Time} {j : AIJobModel} {identity identity' : Identity}
    (h : Stored c ids now s j g) (hsame : Unchanged c identity identity' later)
    (hlater : later < now+hours 1) :
    ∃ snapshot scope code unknown, load identity' c.tenantId ids.jobId s = .ok (snapshot,s) ∧
      resolveScope (roleCodes c.tenantId c.membershipId identity') = .ok (scope,code,unknown) ∧
      ((authorize snapshot later).allowed = true ↔
        code = .ownerShared ∧ unknown = false ∧ scope = scopeFromCode .ownerShared) := by
  obtain ⟨user,hu,huid,hustatus,huversion⟩ := hsame.user
  obtain ⟨tenant,ht,htid,htstatus⟩ := hsame.tenant
  obtain ⟨m,hm,value,hmvalue,hmtenant,hmid,hmuser,hmstatus,hmforce,hmversion⟩ := hsame.membership
  obtain ⟨checkedJob,hjob,hjobv⟩ := stored_job_reads h
  obtain ⟨scope,code,unknown,hscope⟩ :=
    resolveScope_total (roleCodes c.tenantId c.membershipId identity')
  have hgt : g.tenantId = c.tenantId := congrArg JobExecutionGrantFields.tenantId h.fields
  have hgj : g.jobId = ids.jobId := congrArg JobExecutionGrantFields.jobId h.fields
  have hgu : g.userId = c.userId := congrArg JobExecutionGrantFields.userId h.fields
  have hgm : g.membershipId = c.membershipId :=
    congrArg JobExecutionGrantFields.membershipId h.fields
  have hgs : g.jobScopeCode = .ownerShared :=
    congrArg JobExecutionGrantFields.jobScopeCode h.fields
  have hloaded : Loaded identity' c.tenantId ids.jobId s j g user tenant m := by
    refine ⟨selectRow_eq h.job ?_ ?_,selectRow_eq h.grant ?_ ?_,selectRow_eq hu ?_ ?_,
      selectRow_eq ht ?_ ?_,selectRow_eq hm ?_ ?_⟩
    · simp [isJob,h.tenant,h.id]
    · exact fun x hx hp => eq_of_key hx h.job ((isJob_id hp).2.trans h.id.symm)
    · simp [isGrant,hgt,hgj]
    · intro x hx hp
      simp only [isGrant,Bool.and_eq_true,beq_iff_eq] at hp
      apply eq_of_clash hx h.grant
      simp [aiJobExecutionGrants,hp.1,hp.2,hgt,hgj]
    · simp [isUser,huid,hgu]
    · intro x hx hp
      exact eq_of_key hx hu ((eq_of_beq hp).trans (hgu.trans huid.symm))
    · simp [isTenant,htid]
    · exact fun x hx hp => eq_of_key hx ht ((eq_of_beq hp).trans htid.symm)
    · simp [isMembership,hmtenant,hmid,hgm]
    · intro x hx hp
      simp only [isMembership,Bool.and_eq_true,beq_iff_eq] at hp
      exact eq_of_key hx hm (hp.2.trans (hgm.trans hmid.symm))
  have hgrant : grant g = .ok ⟨submittedGrant c ids now,h.checked⟩ := by
    unfold grant
    rw [h.fields]
    exact postInit_value (⟨submittedGrant c ids now,h.checked⟩ : JobExecutionGrant)
  have hmembership : membership m = .ok value := by
    unfold membership
    rw [hmvalue]
    exact postInit_value _
  have hsnapshot : ∃ snapshot,
      snapshotOf identity' c.tenantId j g user tenant m = .ok snapshot := by
    simp only [snapshotOf,hgm,hscope,hjob,hgrant,hmembership,bind,Except.bind]
    exact ⟨_,rfl⟩
  obtain ⟨snapshot,hsnapshot⟩ := hsnapshot
  refine ⟨snapshot,scope,code,unknown,
    load_ok.mpr ⟨rfl,j,g,user,tenant,m,hloaded,hsnapshot⟩,hscope,?_⟩
  obtain ⟨scope',code',unknown',job',grant',membership',hs',hj',hg',hm',rfl⟩ :=
    snapshotOf_ok hsnapshot
  rw [hgm,hscope] at hs'
  rw [hjob] at hj'
  rw [hgrant] at hg'
  rw [hmembership] at hm'
  cases hs'
  cases hj'
  cases hg'
  cases hm'
  have hexpiry : later < j.expiresAt := h.expiry ▸ hlater
  have hactive : (value.value.status == .active &&
      inForce value.value.validFrom value.value.validUntil later) = true := by
    rw [← hmvalue,hmstatus,hmforce]
    rfl
  have hvu : value.value.userId = c.userId := hmvalue ▸ hmuser
  have hvt : value.value.tenantId = c.tenantId := hmvalue ▸ hmtenant
  have hcode : (JobScopeCode.ownerShared = code) = (code = .ownerShared) := propext eq_comm
  rw [authorize_allowed]
  simp [grantChecks,submittedGrant,JobAuthoritySnapshot.membershipActiveAt,hjobv,h.tenant,h.id,
    h.user,h.creator,hexpiry,hustatus,htstatus,hactive,hvu,hvt,huversion,hmversion,hgm,hgs,
    hsame.permission,hcode]

theorem authorized_iff_roles {now later : Time} {j : AIJobModel} {identity identity' : Identity}
    (h : Stored c ids now s j g) (hsame : Unchanged c identity identity' later)
    (hlater : later < now+hours 1) :
    Authorized identity' c.tenantId ids.jobId later s ↔
      ∀ role ∈ roleCodes c.tenantId c.membershipId identity, role ∈ ownerSharedRoles := by
  obtain ⟨snapshot,scope,code,unknown,hload,hscope,hallowed⟩ := loaded_authority h hsame hlater
  have hroles : Authorized identity' c.tenantId ids.jobId later s ↔
      (authorize snapshot later).allowed = true := by
    constructor
    · rintro ⟨snapshot',hload',hall⟩
      rw [hload] at hload'
      cases hload'
      exact hall
    · exact fun hall => ⟨snapshot,hload,hall⟩
  rw [hroles,hallowed,resolveScope_ownerShared hscope]
  constructor
  · rintro ⟨-,hall⟩ role hrole
    exact hall role ((hsame.roles role).mpr hrole)
  · intro hall
    exact ⟨permission_role hsame.permission,
      fun role hrole => hall role ((hsame.roles role).mp hrole)⟩

theorem authorized_spared {tenantId jobId : UUID7} {now : Time}
    (h : Authorized identity tenantId jobId now s) :
    Spared sha256 identity tenantId jobId now s := by
  obtain ⟨snapshot,hload,hallowed⟩ := h
  rintro worker d existing rfl rfl rfl rfl j hj j' hj' hid hid' hfailed
  have hsame : j' ∈ s.jobs → j.status = .failed := fun hold => by
    rw [eq_of_key hj hold (hid.trans hid'.symm)]
    exact hfailed
  rcases commit_cases (acceptDeliveryAfter sha256 worker d existing) s with hs | ⟨decision,hs⟩
  · rw [hs] at hj'
    exact hsame hj'
  generalize commit (acceptDeliveryAfter sha256 worker d existing) s = s' at hs hj'
  cases existing with
  | some row =>
    obtain ⟨rfl,-⟩ := acceptDeliveryAfter_known hs
    exact hsame hj'
  | none =>
    cases acceptDeliveryAfter_first hs with
    | denied authority s' loaded denial recorded jobs frame =>
      rw [hload] at loaded
      cases loaded
      rw [hallowed] at denial
      cases denial
    | rejected authority s' loaded permit recorded frame =>
      rw [frame] at hj'
      exact hsame hj'
    | claimed authority x s' loaded permit recorded guard job attempt frame =>
      rcases (replaced_mem job).mp hj' with rfl | ⟨hold,-⟩
      · cases hfailed
      · exact hsame hold

theorem submission_authorized {q : CreateCall} {accepted : AcceptedAIJob} {db db' : JobDatabase}
    (h : create identity q db = .ok (accepted,db')) (hnew : accepted.replayed = false)
    {p : Deliveries} (hp : p.store = db'.store) (ops : List DeliveryOp) {identity' : Identity}
    {later : Time} (hsame : Unchanged q.command.value identity identity' later)
    (hlater : later < q.now+hours 1) :
    Authorized identity' q.command.value.tenantId accepted.jobId later
        (run (deliveryStep sha256) ops p).store ↔
      ∀ role ∈ roleCodes q.command.value.tenantId q.command.value.membershipId identity,
        role ∈ ownerSharedRoles := by
  obtain ⟨graph,hsub⟩ := create_submitted h hnew
  have hkept := run_kept sha256 ops p
  rw [hp] at hkept
  obtain ⟨j,g,hstored⟩ := submitted_stored hsub hkept
  rw [hsub.jobId]
  exact authorized_iff_roles hstored hsame hlater

/-- A job accepted for a submitter is, at any moment of a later run and under
unchanged authority, authorized and spared by its delivery before it expires,
if and only if every role of the submitter has the owner-and-shared scope. -/
theorem submitted_job_authorized {identity : Identity} {q : CreateCall}
    {accepted : AcceptedAIJob} {db db' : JobDatabase}
    (h : create identity q db = .ok (accepted,db')) (hnew : accepted.replayed = false)
    (p : Deliveries) (hp : p.store = db'.store) (ops : List DeliveryOp)
    (identity' : Identity) (later : Time)
    (hsame : Unchanged q.command.value identity identity' later)
    (hlater : later < q.now+hours 1) :
    let s := (run (deliveryStep sha256) ops p).store
    (Authorized identity' q.command.value.tenantId accepted.jobId later s ∧
      Spared sha256 identity' q.command.value.tenantId accepted.jobId later s) ↔
    ∀ role ∈ roleCodes q.command.value.tenantId q.command.value.membershipId identity,
      role ∈ ownerSharedRoles := by
  intro s
  have hiff := submission_authorized sha256 h hnew hp ops hsame hlater
  constructor
  · exact fun hboth => hiff.mp hboth.1
  · intro hroles
    have hauth := hiff.mpr hroles
    exact ⟨hauth,authorized_spared sha256 hauth⟩

def sampleCommand : CreateAIJobCommand where
  value := {
    tenantId := ⟨0,0,1⟩
    membershipId := ⟨0,0,2⟩
    userId := ⟨0,0,3⟩
    sessionId := ⟨0,0,4⟩
    authVersion := 1
    authzVersion := 1
    idempotencyKey := "key"}
  valid := by decide

def sampleMembership : Membership where
  value := {
    id := ⟨0,0,2⟩
    tenantId := ⟨0,0,1⟩
    userId := ⟨0,0,3⟩
    departmentId := none
    memberType := .internal
    status := .active
    validFrom := 0
    validUntil := none
    authzVersion := 1
    version := 1}
  valid := by decide

def sampleIdentity (role : String) : Identity where
  users := .single {id := ⟨0,0,3⟩} (by decide)
  tenants := .single {
    id := ⟨0,0,1⟩
    name := "Firm"
    normalizedName := "firm"
    tenantType := .lawFirm
    status := .active
    createdByUserId := ⟨0,0,3⟩} (by decide)
  departments := .empty
  memberships := .single ⟨sampleMembership.value⟩ (by decide)
  permissions := .single ⟨⟨0,0,5⟩,AIJobPermission.create.value,.active⟩ rfl
  tenantRoles := .single {
    id := ⟨0,0,6⟩
    tenantId := ⟨0,0,1⟩
    roleTemplateId := none
    code := role
    name := role} (by rfl)
  rolePermissions := .single ⟨⟨0,0,1⟩,⟨0,0,6⟩,⟨0,0,5⟩⟩ rfl
  assignments := .single ⟨⟨0,0,1⟩,⟨0,0,2⟩,⟨0,0,6⟩,none⟩ rfl

def sampleCall : CreateCall where
  service := ⟨{},IdempotencyService.defaults_ok⟩
  command := sampleCommand
  prepared := ⟨1,2⟩
  recordId := ⟨0,1,1⟩
  ids := ⟨⟨0,1,2⟩,⟨0,1,3⟩,⟨0,1,4⟩,⟨0,1,5⟩⟩
  now := 0
  currentTimestamp := 0

def emptyDatabase : JobDatabase := ⟨.empty,.empty⟩

theorem sample_accepted (role : String)
    (h : ((create (sampleIdentity role) sampleCall emptyDatabase).toOption.map
      fun r => r.1.replayed) = some false) :
    ∃ accepted db', create (sampleIdentity role) sampleCall emptyDatabase = .ok (accepted,db') ∧
      accepted.replayed = false := by
  cases hc : create (sampleIdentity role) sampleCall emptyDatabase with
  | error e =>
    rw [hc] at h
    cases h
  | ok r =>
    rw [hc] at h
    exact ⟨r.1,r.2,rfl,Option.some.inj h⟩

theorem sample_unchanged (role : String)
    (h : AIJobPermission.create.value ∈
      permissionCodes sampleCommand.value.tenantId sampleCommand.value.membershipId
        (sampleIdentity role)) :
    Unchanged sampleCommand.value (sampleIdentity role) (sampleIdentity role) 0 := by
  refine ⟨⟨_,List.mem_singleton.mpr rfl,rfl,rfl,rfl⟩,⟨_,List.mem_singleton.mpr rfl,rfl,rfl⟩,
    ⟨_,List.mem_singleton.mpr rfl,sampleMembership,rfl,rfl,rfl,rfl,rfl,?_,rfl⟩,
    fun _ => Iff.rfl,h⟩
  decide

/-- The broker and the workers have not started yet. -/
def undelivered (db : JobDatabase) : Deliveries := ⟨⟨db.store,[]⟩,[],[]⟩

theorem assistant_authorized : ∃ accepted db',
    create (sampleIdentity "assistant") sampleCall emptyDatabase = .ok (accepted,db') ∧
    Authorized (sampleIdentity "assistant") sampleCommand.value.tenantId accepted.jobId 0
      db'.store ∧
    Spared (fun _ => 0) (sampleIdentity "assistant") sampleCommand.value.tenantId
      accepted.jobId 0 db'.store := by
  obtain ⟨accepted,db',hc,hnew⟩ := sample_accepted "assistant" (by decide)
  have hroles : ∀ role ∈ roleCodes sampleCommand.value.tenantId
      sampleCommand.value.membershipId (sampleIdentity "assistant"),
      role ∈ ownerSharedRoles := by decide
  exact ⟨accepted,db',hc,(submitted_job_authorized (fun _ => 0) hc hnew (undelivered db') rfl []
    (sampleIdentity "assistant") 0 (sample_unchanged _ (by decide)) (by decide)).mpr
    hroles⟩

/-- The owner of a tenant has the tenant-wide scope, the grant has not. -/
theorem owner_denied :
    ¬∀ (identity : Identity) (q : CreateCall) (accepted : AcceptedAIJob) (db db' : JobDatabase),
      create identity q db = .ok (accepted,db') → accepted.replayed = false →
      ∀ (p : Deliveries), p.store = db'.store → ∀ (ops : List DeliveryOp) (identity' : Identity)
        (later : Time), Unchanged q.command.value identity identity' later →
        later < q.now+hours 1 →
        Authorized identity' q.command.value.tenantId accepted.jobId later
          (run (deliveryStep fun _ => 0) ops p).store := by
  intro hall
  obtain ⟨accepted,db',hc,hnew⟩ := sample_accepted "tenant_owner" (by decide)
  have hsame := sample_unchanged "tenant_owner" (by decide)
  have hauth := hall _ _ _ _ _ hc hnew (undelivered db') rfl [] _ 0 hsame (by decide)
  have hroles := (submission_authorized (fun _ => 0) hc hnew (p := undelivered db') rfl []
    hsame (by decide)).mp hauth
  have hbad : ¬∀ role ∈ roleCodes sampleCommand.value.tenantId
      sampleCommand.value.membershipId (sampleIdentity "tenant_owner"),
      role ∈ ownerSharedRoles := by decide
  exact hbad hroles

end LawyerAgent.AIJobGrantScope
