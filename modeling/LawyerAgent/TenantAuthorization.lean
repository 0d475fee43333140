import LawyerAgent.Authorization
import LawyerAgent.IdempotencyService
import LawyerAgent.TenantWorkflowTables

/-!
# Authorization of tenant actors

An actor brings the principal and the tenant context of its access token. The
snapshot is what the database says of both; an action is allowed on the
snapshot's word alone.
-/

set_option autoImplicit false

namespace LawyerAgent.TenantAuthorization
open Relational Common Tenancy IdentityTables
open SessionTables Authorization TenantWorkflowTables
open Idempotency

inductive TenancyFailure where
  | integrityError
  | valueError (message : String)
  | runtimeError (message : String)
  | idempotency (failure : IdempotencyFailure)
  | resourceNotFound
  | authorizationDenied (reasonCode : String)
  | versionConflict
  | membershipMutationDenied (reason : String)
  | invalidMemberUpdate (message : String)
  | idempotentResultUnavailable (message : String)
  | applicantUnavailable
  | roleTemplateUnavailable
  | invitationUnavailable
  | invitationRoleDenied
deriving DecidableEq, Repr

abbrev TenancyTx (α : Type) : Type := Tx TenancyFailure TenancyDatabase α

structure TenantActor where
  principal : Principal
  context : TenantContext

structure ActorSessionState where
  id : UUID7
  userId : UUID7
  tenantId : Option UUID7
  membershipId : Option UUID7
  authVersionAtIssue : ℕ
  authzVersionAtIssue : Option ℕ
  revokedAt : Option Time
  expiresAt : Time

structure TenantAuthorizationSnapshot where
  tenant : TenantModel
  actorMembership : Membership
  context : TenantContext
  userStatus : UserStatus
  userAuthVersion : ℕ
  permissions : List String
  roleCodes : List String
  targetMemberships : List Membership
  actorSession : Option ActorSessionState

/-- A stored membership passes the checks of its constructor again. -/
def membershipOf (m : TenantMembershipModel) : Except String Membership :=
  postInit membershipChecks m.toMembershipFields

def membershipsOf : List TenantMembershipModel → Except String (List Membership)
  | [] => .ok []
  | m::models => do
    let first ← membershipOf m
    let rest ← membershipsOf models
    .ok (first::rest)

def sessionState (s : AuthSessionModel) : ActorSessionState where
  id := s.id
  userId := s.userId
  tenantId := s.tenantId
  membershipId := s.membershipId
  authVersionAtIssue := s.authVersionAtIssue
  authzVersionAtIssue := s.authzVersionAtIssue
  revokedAt := s.revokedAt
  expiresAt := s.expiresAt

def authoritativeContext (context : TenantContext) (tenant : TenantModel)
    (actor : MembershipFields) : TenantContext where
  tenantId := tenant.id
  membershipId := some actor.id
  membershipUserId := some actor.userId
  departmentId := actor.departmentId
  tenantStatus := tenant.status
  membershipStatus := some actor.status
  validFrom := some actor.validFrom
  validUntil := actor.validUntil
  authzVersion := some actor.authzVersion
  sessionAuthzVersion := context.sessionAuthzVersion
  scope := context.scope

/-- `none` where a row the actor names is missing. -/
def loadSnapshot (principal : Principal) (context : TenantContext)
    (targetMembershipIds : List UUID7) (d : Identity) (sessions : Table authSessions) :
    Except String (Option TenantAuthorizationSnapshot) :=
  match context.membershipId, context.membershipUserId with
  | some membershipId, some membershipUserId =>
    match selectRow (isUser principal.userId) d.users,
        selectRow (isTenant context.tenantId) d.tenants with
    | some user, some tenant => do
      let memberships ← membershipsOf (selectRows (fun m => m.tenantId == context.tenantId &&
        (membershipId::targetMembershipIds).contains m.id) d.memberships)
      match memberships.find? fun m => m.value.id == membershipId with
      | none => .ok none
      | some actor =>
        if actor.value.userId ≠ membershipUserId then .ok none
        else .ok (some {
          tenant := tenant
          actorMembership := actor
          context := authoritativeContext context tenant actor.value
          userStatus := user.status
          userAuthVersion := user.authVersion
          permissions := permissionCodes context.tenantId membershipId d
          roleCodes := roleCodes context.tenantId membershipId d
          targetMemberships := memberships.filter fun m =>
            targetMembershipIds.contains m.value.id
          actorSession := (selectRow (fun s => s.id == principal.sessionId) sessions).map
            sessionState})
    | _, _ => .ok none
  | some _, none =>
    .error "tenant context membership_user_id must be an RFC 9562 UUIDv7"
  | none, _ => .error "tenant context membership_id must be an RFC 9562 UUIDv7"

def TenantAuthorizationSnapshot.target (s : TenantAuthorizationSnapshot) (membershipId : UUID7) :
    Option Membership :=
  s.targetMemberships.find? fun m => m.value.id == membershipId

/-- The session backs the actor: the account's own session, or one of the
tenant at the membership's authorization version. -/
def sessionBound (p : Principal) (snapshot : TenantAuthorizationSnapshot)
    (s : ActorSessionState) : Bool :=
  (s.tenantId.isNone && s.membershipId.isNone && s.authzVersionAtIssue.isNone) ||
  (s.tenantId == p.tenantId && s.membershipId == p.membershipId &&
    s.authzVersionAtIssue == some snapshot.actorMembership.value.authzVersion)

/-- `_validate_authoritative_actor` -/
def actorValid (actor : TenantActor) (snapshot : TenantAuthorizationSnapshot) (now : Time) :
    Bool :=
  let p := actor.principal
  snapshot.actorSession.any fun s =>
    s.id == p.sessionId && s.userId == p.userId && sessionBound p snapshot s &&
    some p.userId == actor.context.membershipUserId &&
    p.tenantId == some actor.context.tenantId &&
    p.membershipId == actor.context.membershipId &&
    snapshot.context.membershipUserId == some p.userId &&
    snapshot.context.membershipId == p.membershipId &&
    s.revokedAt.isNone && decide (now < s.expiresAt) && p.sessionValid &&
    p.authVersion == snapshot.userAuthVersion &&
    p.sessionAuthVersion == snapshot.userAuthVersion &&
    s.authVersionAtIssue == snapshot.userAuthVersion &&
    actor.context.authzVersion == some snapshot.actorMembership.value.authzVersion &&
    actor.context.sessionAuthzVersion == some snapshot.actorMembership.value.authzVersion

def loadedSnapshot (actor : TenantActor) (targetMembershipIds : List UUID7) :
    TenancyTx TenantAuthorizationSnapshot := do
  let loaded ← read fun db =>
    loadSnapshot actor.principal actor.context targetMembershipIds db.identity db.sessions
  let snapshot ← ofExcept .valueError loaded
  orFail .resourceNotFound snapshot

def requireSnapshot (actor : TenantActor) (targetMembershipIds : List UUID7) (now : Time) :
    TenancyTx TenantAuthorizationSnapshot := do
  let snapshot ← loadedSnapshot actor targetMembershipIds
  require (actorValid actor snapshot now = true) (.authorizationDenied "session_invalid")
  pure snapshot

/-- The principal of the token under the database's status, version and roles. -/
def authoritativePrincipal (actor : TenantActor) (snapshot : TenantAuthorizationSnapshot) :
    Principal :=
  {actor.principal with
    userStatus := snapshot.userStatus
    authVersion := snapshot.userAuthVersion
    permissions := snapshot.permissions
    roleCodes := snapshot.roleCodes}

def policyDecision (actor : TenantActor) (snapshot : TenantAuthorizationSnapshot)
    (action : Action) (resource : ResourceAttributes) (now : Time) : AuthorizationDecision :=
  PolicyEngine.decide (authoritativePrincipal actor snapshot) snapshot.context action resource now

def allow (decision : AuthorizationDecision) : TenancyTx Unit :=
  require (decision.allowed = true) (.authorizationDenied decision.reasonCode)

def authorize (actor : TenantActor) (snapshot : TenantAuthorizationSnapshot) (action : Action)
    (now : Time) : TenancyTx Unit :=
  allow (policyDecision actor snapshot action
    {tenantId := snapshot.tenant.id
     state := .active} now)

def memberResource (snapshot : TenantAuthorizationSnapshot) (target : Membership) :
    ResourceAttributes where
  tenantId := snapshot.tenant.id
  state := .active
  accessPaths := if target.value.departmentId.isSome then [.department] else []
  departmentId := target.value.departmentId

def authorizeMemberAction (actor : TenantActor) (snapshot : TenantAuthorizationSnapshot)
    (action : Action) (target : Membership) (now : Time) : TenancyTx Unit :=
  allow (policyDecision actor snapshot action (memberResource snapshot target) now)

theorem membershipsOf_ok {models : List TenantMembershipModel} {ms : List Membership}
    (h : membershipsOf models = .ok ms) {m : Membership} (hm : m ∈ ms) :
    ∃ model ∈ models, m.value = model.toMembershipFields := by
  induction models generalizing ms with
  | nil =>
    cases h
    cases hm
  | cons model models ih =>
    simp only [membershipsOf,bind,Except.bind] at h
    split at h
    · cases h
    rename_i first hfirst
    split at h
    · cases h
    rename_i rest hrest
    cases h
    rcases List.mem_cons.mp hm with rfl | hm
    · exact ⟨model,by simp,postInit_ok hfirst⟩
    · obtain ⟨x,hx,hv⟩ := ih hrest hm
      exact ⟨x,by simp [hx],hv⟩

structure SnapshotOf (actor : TenantActor) (d : Identity) (s : TenantAuthorizationSnapshot) :
    Prop where
  membershipId : actor.context.membershipId = some s.actorMembership.value.id
  tenantId : s.context.tenantId = actor.context.tenantId
  roleCodes : s.roleCodes =
    IdentityTables.roleCodes actor.context.tenantId s.actorMembership.value.id d
  permissions : s.permissions =
    permissionCodes actor.context.tenantId s.actorMembership.value.id d
  target : ∀ (id : UUID7) (m : Membership), s.target id = some m → m.value.id = id ∧
    ∃ model ∈ d.memberships, m.value = model.toMembershipFields ∧
      model.tenantId = actor.context.tenantId

variable {actor : TenantActor} {s : TenantAuthorizationSnapshot} {targetMembershipIds : List UUID7}

theorem loadSnapshot_ok {d : Identity} {sessions : Table authSessions}
    (h : loadSnapshot actor.principal actor.context targetMembershipIds d sessions = .ok (some s)) :
    SnapshotOf actor d s := by
  unfold loadSnapshot at h
  split at h
  · rename_i membershipId membershipUserId hmembership huser
    split at h
    · rename_i user tenant _ htenant
      simp only [bind,Except.bind] at h
      split at h
      · cases h
      rename_i memberships hms
      split at h
      · cases h
      rename_i actor' hactor
      split at h
      · cases h
      cases h
      have hfound := List.find?_some hactor
      have hid : actor'.value.id = membershipId := eq_of_beq hfound
      refine ⟨?_,eq_of_beq (selectRow_some htenant).2,?_,?_,?_⟩
      · rw [hid]
        exact hmembership
      · rw [hid]
      · rw [hid]
      · intro id m htarget
        have hmem := List.mem_of_find?_eq_some htarget
        have hfound := List.find?_some htarget
        obtain ⟨model,hmodel,hvalue⟩ := membershipsOf_ok hms (List.mem_filter.mp hmem).1
        obtain ⟨hrow,hcond⟩ := mem_selectRows.mp hmodel
        simp only [Bool.and_eq_true,beq_iff_eq] at hcond
        exact ⟨eq_of_beq hfound,model,hrow,hvalue,hcond.1⟩
    · cases h
  · cases h
  · cases h

theorem loadedSnapshot_ok {db db' : TenancyDatabase}
    (h : loadedSnapshot actor targetMembershipIds db = .ok (s,db')) :
    db' = db ∧ SnapshotOf actor db.identity s := by
  simp only [loadedSnapshot,bind_ok,read_ok,ofExcept_ok,orFail_ok] at h
  obtain ⟨_,_,⟨rfl,rfl⟩,_,_,⟨hloaded,rfl⟩,rfl,rfl⟩ := h
  exact ⟨rfl,loadSnapshot_ok hloaded⟩

theorem requireSnapshot_ok {now : Time} {db db' : TenancyDatabase}
    (h : requireSnapshot actor targetMembershipIds now db = .ok (s,db')) :
    db' = db ∧ SnapshotOf actor db.identity s := by
  simp only [requireSnapshot,bind_ok,require_ok,pure_ok] at h
  obtain ⟨_,_,hloaded,_,_,⟨-,rfl⟩,rfl,rfl⟩ := h
  exact loadedSnapshot_ok hloaded

@[simp] theorem allow_ok {decision : AuthorizationDecision} {u : Unit}
    {db db' : TenancyDatabase} :
    allow decision db = .ok (u,db') ↔ decision.allowed = true ∧ db = db' :=
  require_ok

end LawyerAgent.TenantAuthorization
