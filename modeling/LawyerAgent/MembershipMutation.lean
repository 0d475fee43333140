import LawyerAgent.MembershipRepository
import LawyerAgent.RoleTemplates

/-!
# Mutation of a membership

`TenantService._mutate_member`, which updates and revokes a member. The actor
is authorized twice, before and under the locks; the change, the revoked
sessions, the completed idempotency record and the announcement to the cache
are one transaction.
-/

set_option autoImplicit false

namespace LawyerAgent.MembershipMutation
open Relational Common Tenancy IdentityTables
open SessionDomain Authorization RoleTemplates
open Idempotency IdempotencyService TenantWorkflowTables
open MembershipRepository
open TenantAuthorization hiding membershipsOf
open SessionTables hiding sessionsOf tokensOf

def versionOk (version : ℕ) : Bool := decide (1 ≤ version ∧ version ≤ integerMax)

structure UpdateMemberFields where
  membershipId : UUID7
  expectedVersion : ℕ
  status : Option MembershipStatus := none
  roleIds : Option (List UUID7) := none
  changeDepartment : Bool := false
  departmentId : Option UUID7 := none

def updateMemberChecks : Checks UpdateMemberFields := fun c =>
  [(versionOk c.expectedVersion,"version must be a positive integer"),
   (c.status.all fun s => decide (s ∈ [.active,.suspended]),
    "PATCH membership status must be active or suspended"),
   (c.roleIds.all fun ids => decide ids.Nodup,"role_ids must not contain duplicates"),
   (c.changeDepartment || c.departmentId.isNone,
    "department_id requires change_department=true"),
   (c.status.isSome || c.roleIds.isSome || c.changeDepartment,
    "membership PATCH must change at least one field")]

abbrev UpdateMemberCommand : Type := Checked updateMemberChecks

structure RevokeMemberFields where
  membershipId : UUID7
  expectedVersion : ℕ

def revokeMemberChecks : Checks RevokeMemberFields := fun c =>
  [(versionOk c.expectedVersion,"version must be a positive integer")]

abbrev RevokeMemberCommand : Type := Checked revokeMemberChecks

def roleHierarchy : List (String × ℕ) :=
  [("tenant_owner",100),("tenant_admin",80),("department_admin",60),("lawyer_or_legal",40),
   ("teacher",40),("assistant",30),("student",10),("external_client",10)]

def ranked (code : String) : Bool := (List.lookup code roleHierarchy).isSome

/-- The highest rank among the codes, `0` where there is none. -/
def rank (codes : List String) : ℕ :=
  (codes.filterMap fun code => List.lookup code roleHierarchy).foldr max 0

structure MutationFields where
  actorMembership : MembershipFields
  actorRoleCodes : List String
  actorContext : TenantContext
  target : MembershipFields
  currentRoleCodes : List String
  desiredStatus : MembershipStatus
  desiredDepartmentId : Option UUID7
  desiredRoleCodes : List String
  action : Action

def actorIsOwner (m : MutationFields) : Bool := m.actorRoleCodes.contains "tenant_owner"

def actorIsAdmin (m : MutationFields) : Bool :=
  m.actorRoleCodes.contains "tenant_admin" && !actorIsOwner m

def actorIsDepartmentAdmin (m : MutationFields) : Bool :=
  m.actorRoleCodes.contains "department_admin" && !actorIsOwner m && !actorIsAdmin m

def ownerBefore (m : MutationFields) : Bool := m.currentRoleCodes.contains "tenant_owner"

def ownerAfter (m : MutationFields) : Bool := m.desiredRoleCodes.contains "tenant_owner"

def membershipMutationChecks : Checks MutationFields := fun m =>
  [(m.target.status ∉ [.invited,.revoked],"membership state cannot be changed by Task 7"),
   (m.action = .membershipUpdate → m.target.status ∈ [.active,.suspended] ∧
      m.desiredStatus ∈ [.active,.suspended],"membership state transition is not allowed"),
   (m.action = .membershipRevoke → m.desiredStatus = .revoked,
    "membership revoke transition is invalid"),
   (m.action ∈ [.membershipUpdate,.membershipRevoke],
    "membership mutation action is unsupported"),
   (m.actorRoleCodes ≠ [] ∧ m.actorRoleCodes.all ranked,"actor role hierarchy is invalid"),
   ((m.currentRoleCodes++m.desiredRoleCodes).all ranked,"target role hierarchy is invalid"),
   (!(actorIsAdmin m && (ownerBefore m || ownerAfter m)),
    "tenant admin cannot grant or remove owner role"),
   (actorIsOwner m || rank m.currentRoleCodes < rank m.actorRoleCodes ||
      m.target.id == m.actorMembership.id,"actor cannot manage an equal or higher role"),
   (rank m.desiredRoleCodes ≤ rank m.actorRoleCodes,
    "actor cannot grant a role above its hierarchy"),
   (ownerBefore m == ownerAfter m || actorIsOwner m,
    "only an active owner may grant or remove owner role"),
   (ownerAfter m → m.target.memberType = .owner,
    "owner role is incompatible with target member type"),
   (actorIsDepartmentAdmin m → m.actorMembership.departmentId.isSome ∧
      m.target.departmentId = m.actorMembership.departmentId ∧
      m.desiredDepartmentId = m.actorMembership.departmentId ∧
      m.actorContext.departmentId = m.actorMembership.departmentId,
    "department admin can manage only the same department"),
   (actorIsDepartmentAdmin m → rank m.desiredRoleCodes ≤ rank ["department_admin"],
    "department admin cannot grant a higher role"),
   (m.target.memberType = .student → sameElements m.desiredRoleCodes ["student"],
    "roles are incompatible with student member type"),
   (m.target.memberType = .externalClient → sameElements m.desiredRoleCodes ["external_client"],
    "roles are incompatible with external member type"),
   (m.target.memberType = .internal → !ownerAfter m,
    "roles are incompatible with internal member type")]

def removesActiveOwner (m : MutationFields) : Bool :=
  (m.target.status == .active && ownerBefore m) &&
    !(m.desiredStatus == .active && ownerAfter m)

/-- The arguments `_mutate_member` is given by its two callers. -/
structure MemberMutation where
  membershipId : UUID7
  expectedVersion : ℕ
  status : Option MembershipStatus
  roleIds : Option (List UUID7)
  changeDepartment : Bool
  departmentId : Option UUID7
  operation : String
  action : Action
  revocationReason : RevocationReason

/-- The readings of the service's clock, in order. -/
structure MutationClock where
  now : Time
  initial : Time
  initialAction : Time
  initialRoles : Time
  locked : Time
  lockedAction : Time
  lockedRoles : Time

/-- One call. `prepared` holds the digests of the idempotency key and of the
request body; `recordId` and `taskId` are the identifiers drawn for new rows. -/
structure MutationCall where
  service : Checked idempotencyServiceChecks
  actor : TenantActor
  prepared : PreparedIdempotencyRequest
  recordId : UUID7
  taskId : UUID7
  clock : MutationClock
  currentTimestamp : Time

structure MemberMutationResult where
  membership : Membership
  roleIds : List UUID7
  replayed : Bool

/-- What is left to do after the commit of a change. -/
structure CacheTask where
  taskId : UUID7
  tenantId : UUID7
  membershipId : UUID7
  authzVersion : ℕ
deriving DecidableEq

structure CommittedMutation where
  result : MemberMutationResult
  cacheTask : Option CacheTask

structure AuthorizedTarget where
  snapshot : TenantAuthorizationSnapshot
  target : Membership

def authorizeRoles (q : MutationCall) (c : MemberMutation) (s : TenantAuthorizationSnapshot)
    (target : Membership) (now : Time) : TenancyTx Unit :=
  match c.roleIds with
  | none => pure ()
  | some _ => authorizeMemberAction q.actor s .roleAssign target now

def authorizedTarget (q : MutationCall) (c : MemberMutation)
    (snapshotAt actionAt rolesAt : Time) : TenancyTx AuthorizedTarget := do
  let snapshot ← requireSnapshot q.actor [c.membershipId] snapshotAt
  let target ← orFail .resourceNotFound (snapshot.target c.membershipId)
  authorizeMemberAction q.actor snapshot c.action target actionAt
  authorizeRoles q c snapshot target rolesAt
  pure ⟨snapshot,target⟩

def membershipScope (tenantId membershipId : UUID7) : IdempotencyScope :=
  ⟨⟨.membership,membershipId,some tenantId⟩,
    Idempotency.membershipScope_ok tenantId membershipId⟩

def mutationRequest (q : MutationCall) (c : MemberMutation) (actorMembershipId : UUID7) :
    ReserveRequest where
  service := q.service
  scope := membershipScope q.actor.context.tenantId actorMembershipId
  operation := c.operation
  prepared := q.prepared
  newId := q.recordId
  now := q.clock.now
  currentTimestamp := q.currentTimestamp

def replayMember (c : MemberMutation) (locked : AuthorizedTarget)
    (reference : IdempotencyResultReference) : TenancyTx CommittedMutation := do
  require (reference.value.resultType = "membership" ∧ reference.value.resultId = c.membershipId)
    (.idempotentResultUnavailable "membership replay is invalid")
  let replayRoles ← read fun db =>
    roleIds locked.snapshot.context.tenantId c.membershipId db.identity
  pure ⟨⟨locked.target,replayRoles,true⟩,none⟩

structure MutationPlan where
  current : Membership
  currentRoles : List UUID7
  desiredRoles : List UUID7
  desiredStatus : MembershipStatus
  desiredDepartmentId : Option UUID7

def MutationPlan.changed (p : MutationPlan) : Bool :=
  p.desiredStatus != p.current.value.status ||
  p.desiredDepartmentId != p.current.value.departmentId || p.desiredRoles != p.currentRoles

def departmentKnown (c : MemberMutation) (tenantId : UUID7) (d : Identity) : Bool :=
  !c.changeDepartment || c.departmentId.all (departmentExists tenantId · d)

def mutationFields (c : MemberMutation) (locked : TenantAuthorizationSnapshot)
    (p : MutationPlan) (currentCodes requestedCodes : List (UUID7 × String)) :
    MutationFields where
  actorMembership := locked.actorMembership.value
  actorRoleCodes := locked.roleCodes
  actorContext := locked.context
  target := p.current.value
  currentRoleCodes := currentCodes.map Prod.snd
  desiredStatus := p.desiredStatus
  desiredDepartmentId := p.desiredDepartmentId
  desiredRoleCodes := requestedCodes.map Prod.snd
  action := c.action

def mutationPlan (c : MemberMutation) (current : Membership) (currentRoles : List UUID7) :
    MutationPlan where
  current := current
  currentRoles := currentRoles
  desiredRoles := (c.roleIds.map sortedIds).getD currentRoles
  desiredStatus := c.status.getD current.value.status
  desiredDepartmentId := if c.changeDepartment then c.departmentId else current.value.departmentId

def planMutation (c : MemberMutation) (locked : AuthorizedTarget) : TenancyTx MutationPlan := do
  require (locked.target.value.version = c.expectedVersion) .versionConflict
  let tenantId := locked.snapshot.context.tenantId
  let d ← read TenancyDatabase.identity
  let plan := mutationPlan c locked.target (roleIds tenantId c.membershipId d)
  let currentCodes ← orFail .resourceNotFound (roleCodesForIds tenantId plan.currentRoles d)
  let requestedCodes ← orFail .resourceNotFound (roleCodesForIds tenantId plan.desiredRoles d)
  require (departmentKnown c tenantId d = true) .resourceNotFound
  let m ← ofExcept .membershipMutationDenied (postInit membershipMutationChecks
    (mutationFields c locked.snapshot plan currentCodes requestedCodes))
  require (removesActiveOwner m.value = true → 1 < countActiveOwners tenantId d)
    (.membershipMutationDenied "cannot remove the last active owner")
  pure plan

def replaceChangedRoles (c : MemberMutation) (locked : AuthorizedTarget) (p : MutationPlan) :
    TenancyTx Unit :=
  if p.desiredRoles = p.currentRoles then pure ()
  else replaceRoles locked.snapshot.context.tenantId c.membershipId p.desiredRoles
    locked.snapshot.actorMembership.value.id

def changeMember (q : MutationCall) (c : MemberMutation) (locked : AuthorizedTarget)
    (p : MutationPlan) : TenancyTx Membership := do
  let stored ← updateLocked locked.snapshot.context.tenantId p.current p.desiredStatus
    p.desiredDepartmentId c.expectedVersion
  let updated ← orFail .versionConflict stored
  replaceChangedRoles c locked p
  revokeForMembership q.actor.context.tenantId c.membershipId c.revocationReason q.clock.now
  pure updated

def completeMutation (q : MutationCall) (c : MemberMutation)
    (reservation : IdempotencyReservation) (effect : IdempotencyMutationEffect)
    (cacheAuthzVersion : Option ℕ) : TenancyTx Unit := do
  let result ← ofExcept .valueError (postInit idempotencyResultChecks
    ⟨"membership",c.membershipId,some effect,cacheAuthzVersion⟩)
  within .idempotency recordsOf (complete reservation result q.clock.now)

def applyMutation (q : MutationCall) (c : MemberMutation) (locked : AuthorizedTarget)
    (reservation : IdempotencyReservation) (p : MutationPlan) : TenancyTx CommittedMutation :=
  if p.changed then do
    let oldAuthzVersion := p.current.value.authzVersion
    let updated ← changeMember q c locked p
    completeMutation q c reservation .changed (some oldAuthzVersion)
    let task : CacheTask := ⟨q.taskId,q.actor.context.tenantId,c.membershipId,oldAuthzVersion⟩
    addInvalidation
      ⟨task.taskId,task.tenantId,task.membershipId,task.authzVersion,reservation.recordId,
        q.clock.now⟩ q.currentTimestamp
    pure ⟨⟨updated,p.desiredRoles,false⟩,some task⟩
  else do
    completeMutation q c reservation .noChange none
    pure ⟨⟨p.current,p.desiredRoles,false⟩,none⟩

def mutateMember (q : MutationCall) (c : MemberMutation) : TenancyTx CommittedMutation := do
  let _ ← authorizedTarget q c q.clock.initial q.clock.initialAction q.clock.initialRoles
  let actorMembershipId ← orFail (.authorizationDenied "membership_inactive")
    q.actor.context.membershipId
  let gate ← read fun db => tenantExists q.actor.context.tenantId db.identity
  require (gate = true) .resourceNotFound
  let locked ← authorizedTarget q c q.clock.locked q.clock.lockedAction q.clock.lockedRoles
  let reservation ← within .idempotency recordsOf
    (reserve (mutationRequest q c actorMembershipId))
  match reservation.replay with
  | some reference => replayMember c locked reference
  | none => do
    let plan ← planMutation c locked
    applyMutation q c locked reservation plan

def updateMutation (command : UpdateMemberCommand) : MemberMutation where
  membershipId := command.value.membershipId
  expectedVersion := command.value.expectedVersion
  status := command.value.status
  roleIds := command.value.roleIds
  changeDepartment := command.value.changeDepartment
  departmentId := command.value.departmentId
  operation := "membership.update"
  action := .membershipUpdate
  revocationReason := .authorizationChanged

def revokeMutation (command : RevokeMemberCommand) : MemberMutation where
  membershipId := command.value.membershipId
  expectedVersion := command.value.expectedVersion
  status := some .revoked
  roleIds := none
  changeDepartment := false
  departmentId := none
  operation := "membership.revoke"
  action := .membershipRevoke
  revocationReason := .membershipRevoked

def updateMember (q : MutationCall) (command : UpdateMemberCommand) :
    TenancyTx CommittedMutation :=
  mutateMember q (updateMutation command)

def revokeMember (q : MutationCall) (command : RevokeMemberCommand) :
    TenancyTx CommittedMutation :=
  mutateMember q (revokeMutation command)

/-- The target is a stored membership of the actor's tenant. -/
structure TargetOf (q : MutationCall) (c : MemberMutation) (d : Identity)
    (t : AuthorizedTarget) : Prop where
  tenantId : t.snapshot.context.tenantId = q.actor.context.tenantId
  row : ∃ m ∈ d.memberships, m.tenantId = q.actor.context.tenantId ∧ m.id = c.membershipId ∧
    t.target.value = m.toMembershipFields

variable {c : MemberMutation} {db db' : TenancyDatabase} {q : MutationCall}
  {locked : AuthorizedTarget} {p : MutationPlan} {reservation : IdempotencyReservation}
  {committed : CommittedMutation}

theorem authorizedTarget_ok {snapshotAt actionAt rolesAt : Time} {t : AuthorizedTarget}
    (h : authorizedTarget q c snapshotAt actionAt rolesAt db = .ok (t,db')) :
    db' = db ∧ TargetOf q c db.identity t := by
  have hroles : ∀ s target (u : Unit) (x y : TenancyDatabase),
      authorizeRoles q c s target rolesAt x = .ok (u,y) → y = x := by
    intro s target u x y hx
    unfold authorizeRoles at hx
    cases hids : c.roleIds with
    | none =>
      rw [hids] at hx
      exact (pure_ok.mp hx).2.symm
    | some ids =>
      rw [hids] at hx
      exact (allow_ok.mp hx).2.symm
  simp only [authorizedTarget,bind_ok,orFail_ok,pure_ok] at h
  obtain ⟨s,_,hs,target,_,⟨htarget,rfl⟩,_,_,hallowed,_,_,hrole,rfl,rfl⟩ := h
  obtain ⟨rfl,hsnapshot⟩ := requireSnapshot_ok hs
  obtain ⟨-,rfl⟩ := allow_ok.mp hallowed
  obtain ⟨hid,m,hm,hvalue,htenant⟩ := hsnapshot.target _ _ htarget
  refine ⟨hroles _ _ _ _ _ hrole,hsnapshot.tenantId,m,hm,htenant,?_,hvalue⟩
  rw [hvalue] at hid
  exact hid

/-- A plan that passed the validation, read off `d`. -/
structure PlanOf (q : MutationCall) (c : MemberMutation) (locked : AuthorizedTarget)
    (d : Identity) (p : MutationPlan) : Prop where
  plan : p = mutationPlan c locked.target (roleIds q.actor.context.tenantId c.membershipId d)
  version : locked.target.value.version = c.expectedVersion
  validated : ∃ currentCodes requestedCodes,
    roleCodesForIds q.actor.context.tenantId p.currentRoles d = some currentCodes ∧
    roleCodesForIds q.actor.context.tenantId p.desiredRoles d = some requestedCodes ∧
    firstError (membershipMutationChecks
      (mutationFields c locked.snapshot p currentCodes requestedCodes)) = none ∧
    (removesActiveOwner (mutationFields c locked.snapshot p currentCodes requestedCodes) = true →
      1 < countActiveOwners q.actor.context.tenantId d)

theorem planMutation_ok (htenant : locked.snapshot.context.tenantId = q.actor.context.tenantId)
    (h : planMutation c locked db = .ok (p,db')) :
    db' = db ∧ PlanOf q c locked db.identity p := by
  simp only [planMutation,bind_ok,require_ok,read_ok,orFail_ok,ofExcept_ok,pure_ok] at h
  obtain ⟨_,_,⟨hversion,rfl⟩,_,_,⟨rfl,rfl⟩,current,_,⟨hcurrent,rfl⟩,requested,_,
    ⟨hrequested,rfl⟩,_,_,⟨-,rfl⟩,m,_,⟨hm,rfl⟩,_,_,⟨howners,rfl⟩,rfl,rfl⟩ := h
  rw [htenant] at hcurrent hrequested howners hm ⊢
  refine ⟨rfl,rfl,hversion,current,requested,hcurrent,hrequested,?_,?_⟩
  · have hvalid := m.valid
    rwa [postInit_ok hm] at hvalid
  · rwa [postInit_ok hm] at howners

theorem replaceChangedRoles_ok {u : Unit} (h : replaceChangedRoles c locked p db = .ok (u,db')) :
    (assignmentsOf.get db').rows = (if p.desiredRoles = p.currentRoles then
        (assignmentsOf.get db).rows
      else p.desiredRoles.map (fun id => ⟨locked.snapshot.context.tenantId,c.membershipId,id,
          some locked.snapshot.actorMembership.value.id⟩) ++
        (assignmentsOf.get db).rows.filter fun a =>
          !assignedTo locked.snapshot.context.tenantId c.membershipId a) ∧
    db' = assignmentsOf.set (assignmentsOf.get db') db := by
  unfold replaceChangedRoles at h
  by_cases hsame : p.desiredRoles = p.currentRoles
  · rw [if_pos hsame] at h ⊢
    obtain ⟨-,rfl⟩ := pure_ok.mp h
    exact ⟨rfl,rfl⟩
  · rw [if_neg hsame] at h ⊢
    exact replaceRoles_ok h

theorem completeMutation_ok {effect : IdempotencyMutationEffect} {version : Option ℕ} {u : Unit}
    (h : completeMutation q c reservation effect version db = .ok (u,db')) :
    db' = recordsOf.set db'.records db := by
  simp only [completeMutation,bind_ok,ofExcept_ok,within_ok] at h
  obtain ⟨_,_,⟨-,rfl⟩,t,-,rfl⟩ := h
  rfl

/-- What a change has written, next to its idempotency record. -/
structure MemberChanged (q : MutationCall) (c : MemberMutation) (committed : CommittedMutation)
    (locked : AuthorizedTarget) (p : MutationPlan) (db db' : TenancyDatabase) : Prop where
  differs : p.changed = true
  plan : PlanOf q c locked db.identity p
  row : ∃ m, m.tenantId = q.actor.context.tenantId ∧ m.id = c.membershipId ∧
    p.current.value = m.toMembershipFields ∧ Replaced m
      (updatedMember p.desiredStatus p.desiredDepartmentId m) db.identity.memberships
      db'.identity.memberships
  roles : db'.identity.tenantRoles = db.identity.tenantRoles
  assignments : db'.identity.assignments.rows = if p.desiredRoles = p.currentRoles then
      db.identity.assignments.rows
    else p.desiredRoles.map (fun id => ⟨q.actor.context.tenantId,c.membershipId,id,
        some locked.snapshot.actorMembership.value.id⟩) ++
      db.identity.assignments.rows.filter fun a =>
        !assignedTo q.actor.context.tenantId c.membershipId a
  tokens : ∀ t ∈ db'.tokens, boundToken q.actor.context.tenantId c.membershipId t = true →
    t.revokedAt.isSome = true
  sessions : ∀ s ∈ db'.sessions, boundSession q.actor.context.tenantId c.membershipId s = true →
    s.revokedAt.isSome = true
  outbox : ∃ recordId, Inserted (invalidationModel ⟨q.taskId,q.actor.context.tenantId,
    c.membershipId,p.current.value.authzVersion,recordId,q.clock.now⟩ q.currentTimestamp)
      db.cacheOutbox db'.cacheOutbox
  task : committed.cacheTask = some ⟨q.taskId,q.actor.context.tenantId,c.membershipId,
    p.current.value.authzVersion⟩
  result : committed.result.replayed = false

/-- A call either changes the membership or touches nothing but its record. -/
inductive MutationEffect (q : MutationCall) (c : MemberMutation) (db : TenancyDatabase) :
    CommittedMutation → TenancyDatabase → Prop where
  | kept (committed : CommittedMutation) (records : IdempotencyRepository.Records)
      (task : committed.cacheTask = none) :
      MutationEffect q c db committed (recordsOf.set records db)
  | changed (committed : CommittedMutation) (locked : AuthorizedTarget) (p : MutationPlan)
      (db' : TenancyDatabase) (h : MemberChanged q c committed locked p db db') :
      MutationEffect q c db committed db'

theorem replayMember_ok {reference : IdempotencyResultReference}
    (h : replayMember c locked reference db = .ok (committed,db')) :
    db' = db ∧ committed.cacheTask = none := by
  simp only [replayMember,bind_ok,require_ok,read_ok,pure_ok] at h
  obtain ⟨_,_,⟨-,rfl⟩,_,_,⟨rfl,rfl⟩,rfl,rfl⟩ := h
  exact ⟨rfl,rfl⟩

theorem applyMutation_changed (htarget : TargetOf q c db.identity locked)
    (hplan : PlanOf q c locked db.identity p) (hchanged : p.changed = true)
    (h : applyMutation q c locked reservation p db = .ok (committed,db')) :
    MemberChanged q c committed locked p db db' := by
  unfold applyMutation at h
  rw [if_pos hchanged] at h
  simp only [changeMember,bind_ok,orFail_ok,pure_ok] at h
  obtain ⟨_,_,⟨_,db₁,hupdate,updated,_,⟨rfl,rfl⟩,_,db₂,hreplace,_,db₃,hrevoke,rfl,rfl⟩,_,db₄,
    hcomplete,_,db₅,hadd,rfl,rfl⟩ := h
  obtain ⟨⟨m,htenant,hid,-,-,hreplaced⟩,hframe₁⟩ := updateLocked_ok hupdate
  obtain ⟨hassignments,hframe₂⟩ := replaceChangedRoles_ok hreplace
  have hrevoked := revokeForMembership_ok hrevoke
  have hframe₃ := hrevoked.frame
  have hframe₄ := completeMutation_ok hcomplete
  obtain ⟨hinserted,hframe₅⟩ := addInvalidation_ok hadd
  have hcurrent : p.current = locked.target := by
    rw [hplan.plan]
    rfl
  have hmembers : db₅.identity.memberships = db₁.identity.memberships := by
    rw [hframe₅,hframe₄,hframe₃,hframe₂]
    rfl
  have hassigned : db₅.identity.assignments = db₂.identity.assignments := by
    rw [hframe₅,hframe₄,hframe₃]
    rfl
  have hbefore : db₁.identity.assignments = db.identity.assignments := by
    rw [hframe₁]
    rfl
  have hroles : db₅.identity.tenantRoles = db.identity.tenantRoles := by
    rw [hframe₅,hframe₄,hframe₃,hframe₂,hframe₁]
    rfl
  have htokens : db₅.tokens = db₃.tokens := by
    rw [hframe₅,hframe₄]
    rfl
  have hsessions : db₅.sessions = db₃.sessions := by
    rw [hframe₅,hframe₄]
    rfl
  have houtbox : db₄.cacheOutbox = db.cacheOutbox := by
    rw [hframe₄,hframe₃,hframe₂,hframe₁]
    rfl
  rw [htarget.tenantId] at htenant hassignments
  obtain ⟨n,hn,hnt,hnid,hvalue⟩ := htarget.row
  refine ⟨hchanged,hplan,?_,hroles,?_,?_,?_,⟨reservation.recordId,?_⟩,rfl,rfl⟩
  · have hmid : m.id = c.membershipId := by
      rw [hid,hcurrent,hvalue]
      exact hnid
    obtain rfl : m = n := eq_of_key hreplaced.mem hn (hmid.trans hnid.symm)
    refine ⟨m,htenant,hmid,?_,?_⟩
    · rw [hcurrent]
      exact hvalue
    · rw [hmembers]
      exact hreplaced
  · rw [hassigned,← hbefore]
    exact hassignments
  · intro t ht hbound
    rw [htokens] at ht
    exact tokens_revoked hrevoked ht hbound
  · intro s hs hbound
    rw [hsessions] at hs
    exact sessions_revoked hrevoked hs hbound
  · rw [← houtbox]
    exact hinserted

theorem mutateMember_effect (h : mutateMember q c db = .ok (committed,db')) :
    MutationEffect q c db committed db' := by
  simp only [mutateMember,bind_ok,orFail_ok,read_ok,require_ok,within_ok] at h
  obtain ⟨_,db₁,hinitial,_,_,⟨-,rfl⟩,_,_,⟨rfl,rfl⟩,_,_,⟨-,rfl⟩,locked,db₂,hlocked,reservation,
    _,⟨records,-,rfl⟩,h⟩ := h
  obtain ⟨hsame₁,-⟩ := authorizedTarget_ok hinitial
  obtain ⟨hsame₂,htarget⟩ := authorizedTarget_ok hlocked
  rw [hsame₂,hsame₁] at h
  rw [hsame₁] at htarget
  cases hreplay : reservation.replay with
  | some reference =>
    rw [hreplay] at h
    obtain ⟨hdb',htask⟩ := replayMember_ok h
    rw [hdb']
    exact .kept committed records htask
  | none =>
    rw [hreplay] at h
    simp only [bind_ok] at h
    obtain ⟨p,_,hplan,h⟩ := h
    obtain ⟨hsame,hp⟩ := planMutation_ok htarget.tenantId hplan
    rw [hsame] at h
    have htarget' : TargetOf q c (recordsOf.set records db).identity locked := htarget
    by_cases hchanged : p.changed = true
    · have hc := applyMutation_changed htarget' hp hchanged h
      exact .changed committed locked p db' ⟨hc.differs,hc.plan,hc.row,hc.roles,hc.assignments,
        hc.tokens,hc.sessions,hc.outbox,hc.task,hc.result⟩
    · unfold applyMutation at h
      rw [if_neg hchanged] at h
      simp only [bind_ok,pure_ok] at h
      obtain ⟨_,_,hcomplete,rfl,rfl⟩ := h
      rw [completeMutation_ok hcomplete]
      exact .kept _ _ rfl

end LawyerAgent.MembershipMutation
