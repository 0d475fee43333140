import LawyerAgent.TenantApplications

/-!
# Invitations

`InvitationService.create` and `InvitationService.accept`. A target enters as
its blind index, a token as its digest; what a user's verified identities hash
to is an argument of the acceptance.
-/

set_option autoImplicit false

namespace LawyerAgent.Invitations
open Relational Common Tenancy IdentityTables
open RoleTemplates
open Idempotency IdempotencyService TenantWorkflowTables
open MembershipRepository MembershipMutation
open TenantApplications
open TenantAuthorization hiding membershipsOf
open SessionTables hiding sessionsOf tokensOf

structure VersionedBlindIndex where
  keyVersion : ℕ
  digest : Digest

/-- `none` where the roles do not go together. -/
def memberTypeForRoles (codes : List String) : Option MemberType :=
  if codes.contains "tenant_owner" || codes.isEmpty then none
  else if codes.contains "student" then
    if sameElements codes ["student"] then some .student else none
  else if codes.contains "external_client" then
    if sameElements codes ["external_client"] then some .externalClient else none
  else some .internal

/-- `_validate_invitation_roles` -/
def invitationRolesAllowed (actorRoles invitedRoles : List String) : Bool :=
  !actorRoles.isEmpty && !invitedRoles.isEmpty && (actorRoles++invitedRoles).all ranked &&
  !invitedRoles.contains "tenant_owner" &&
  !(actorRoles.contains "department_admin" &&
    !(actorRoles.contains "tenant_owner" || actorRoles.contains "tenant_admin")) &&
  decide (rank invitedRoles ≤ rank actorRoles) &&
  (actorRoles.contains "tenant_owner" || decide (rank invitedRoles < rank actorRoles)) &&
  (memberTypeForRoles invitedRoles).isSome

/-- As for members, but no role at all is not found either. -/
def invitedRoleCodes (tenantId : UUID7) (ids : List UUID7) (d : Identity) :
    Option (List (UUID7 × String)) :=
  if ids = [] then none else roleCodesForIds tenantId ids d

structure CreateInvitationFields where
  targetKind : InvitationTargetKind
  roleIds : List UUID7
  expiresAt : Time

def createInvitationChecks : Checks CreateInvitationFields := fun c =>
  [(c.roleIds ≠ [] ∧ c.roleIds = sortedIds c.roleIds.dedup,
    "invitation role_ids must be unique and ordered")]

abbrev CreateInvitationCommand : Type := Checked createInvitationChecks

structure InvitationClock where
  now : Time
  initial : Time
  initialInvite : Time
  initialAssign : Time
  locked : Time
  lockedInvite : Time
  lockedAssign : Time

/-- `activeIndex` is the target's blind index under the active key, if the
index has that key; `tokenHash` digests the token that was drawn. -/
structure CreateInvitationCall where
  service : Checked idempotencyServiceChecks
  delivery : Bool
  actor : TenantActor
  command : CreateInvitationCommand
  activeIndex : Option VersionedBlindIndex
  prepared : PreparedIdempotencyRequest
  recordId : UUID7
  invitationId : UUID7
  tokenHash : Digest
  clock : InvitationClock
  currentTimestamp : Time

structure InvitationResult where
  invitationId : UUID7
  tenantId : UUID7
  expiresAt : Time
  status : InvitationStatus
  replayed : Bool

def invitationResult (i : TenantInvitationModel) (replayed : Bool) : InvitationResult :=
  ⟨i.id,i.tenantId,i.expiresAt,i.status,replayed⟩

/-- The actor's user and membership are not compared here. -/
def tenantActorValid (actor : TenantActor) (snapshot : TenantAuthorizationSnapshot)
    (now : Time) : Bool :=
  let p := actor.principal
  snapshot.actorSession.any fun s =>
    s.id == p.sessionId && s.userId == p.userId && sessionBound p snapshot s &&
    s.revokedAt.isNone && decide (now < s.expiresAt) &&
    s.authVersionAtIssue == snapshot.userAuthVersion &&
    p.authVersion == snapshot.userAuthVersion &&
    p.sessionAuthVersion == snapshot.userAuthVersion &&
    actor.context.authzVersion == some snapshot.actorMembership.value.authzVersion &&
    actor.context.sessionAuthzVersion == some snapshot.actorMembership.value.authzVersion

def requireTenantSnapshot (actor : TenantActor) (now : Time) :
    TenancyTx TenantAuthorizationSnapshot := do
  let snapshot ← loadedSnapshot actor []
  require (tenantActorValid actor snapshot now = true) (.authorizationDenied "session_invalid")
  pure snapshot

def authorizedInviter (actor : TenantActor) (snapshotAt inviteAt assignAt : Time) :
    TenancyTx TenantAuthorizationSnapshot := do
  let snapshot ← requireTenantSnapshot actor snapshotAt
  authorize actor snapshot .membershipInvite inviteAt
  authorize actor snapshot .roleAssign assignAt
  pure snapshot

def inviteRequest (q : CreateInvitationCall) (actorMembershipId : UUID7) : ReserveRequest where
  service := q.service
  scope := membershipScope q.actor.context.tenantId actorMembershipId
  operation := "membership.invite"
  prepared := q.prepared
  newId := q.recordId
  now := q.clock.now
  currentTimestamp := q.currentTimestamp

def newInvitation (q : CreateInvitationCall) (actorMembershipId : UUID7)
    (index : VersionedBlindIndex) : TenantInvitationModel where
  id := q.invitationId
  tenantId := q.actor.context.tenantId
  targetKind := q.command.value.targetKind
  targetBlindIndex := index.digest
  targetBlindIndexKeyVersion := some index.keyVersion
  tokenHash := q.tokenHash
  invitedByMembershipId := actorMembershipId
  expiresAt := q.command.value.expiresAt
  updatedAt := q.currentTimestamp

def addInvitation (i : TenantInvitationModel) : TenancyTx Unit := do
  require (i.targetBlindIndexKeyVersion.any (fun v => decide (1 ≤ v ∧ v ≤ 32767)) = true)
    (.valueError "invitation blind-index key version is invalid")
  zoom invitationsOf (insertRow .integrityError i)

def addInvitationRoles (i : TenantInvitationModel) (ids : List UUID7) : TenancyTx Unit :=
  zoom invitationRolesOf (insertRows .integrityError (ids.map fun id => ⟨i.tenantId,i.id,id⟩))

def replayInvitation (tenantId : UUID7) (reference : IdempotencyResultReference) :
    TenancyTx InvitationResult := do
  require (reference.value.resultType = "invitation") .invitationUnavailable
  let replay ← read fun db => selectRow (fun i => i.tenantId == tenantId &&
    i.id == reference.value.resultId) db.invitations
  let replay ← orFail .invitationUnavailable replay
  pure (invitationResult replay true)

def createInvitation (q : CreateInvitationCall) : TenancyTx InvitationResult := do
  require (q.delivery = true) (.runtimeError "invitation delivery capability is unavailable")
  require (q.clock.now < q.command.value.expiresAt)
    (.valueError "invitation expiry must be in the future")
  let _ ← authorizedInviter q.actor q.clock.initial q.clock.initialInvite q.clock.initialAssign
  let actorMembershipId ← orFail (.authorizationDenied "membership_inactive")
    q.actor.context.membershipId
  let gate ← read fun db => tenantExists q.actor.context.tenantId db.identity
  require (gate = true) .resourceNotFound
  let locked ← authorizedInviter q.actor q.clock.locked q.clock.lockedInvite q.clock.lockedAssign
  let roles ← read fun db =>
    invitedRoleCodes q.actor.context.tenantId q.command.value.roleIds db.identity
  let roles ← orFail .resourceNotFound roles
  require (invitationRolesAllowed locked.roleCodes (roles.map Prod.snd) = true)
    .invitationRoleDenied
  let reservation ← within .idempotency recordsOf (reserve (inviteRequest q actorMembershipId))
  match reservation.replay with
  | some reference => replayInvitation q.actor.context.tenantId reference
  | none => do
    let index ← orFail
      (.runtimeError "active invitation blind-index version is unavailable") q.activeIndex
    let invitation := newInvitation q actorMembershipId index
    addInvitation invitation
    addInvitationRoles invitation q.command.value.roleIds
    let result ← ofExcept .valueError
      (postInit idempotencyResultChecks ⟨"invitation",invitation.id,none,none⟩)
    within .idempotency recordsOf (complete reservation result q.clock.now)
    pure (invitationResult invitation false)

/-- `candidates` are the blind indexes of the user's verified identities of a
kind, under every key. -/
structure AcceptInvitationCall where
  service : Checked idempotencyServiceChecks
  actorUserId : UUID7
  tokenHash : Digest
  candidates : InvitationTargetKind → List VersionedBlindIndex
  prepared : PreparedIdempotencyRequest
  recordId : UUID7
  membershipId : UUID7
  now : Time
  currentTimestamp : Time

structure InvitationAcceptanceResult where
  invitationId : UUID7
  membership : Membership
  roleIds : List UUID7
  replayed : Bool

def acceptRequest (q : AcceptInvitationCall) : ReserveRequest where
  service := q.service
  scope := userScope q.actorUserId
  operation := "invitation.accept"
  prepared := q.prepared
  newId := q.recordId
  now := q.now
  currentTimestamp := q.currentTimestamp

def hasToken (tokenHash : Digest) (i : TenantInvitationModel) : Bool := i.tokenHash == tokenHash

/-- The invitation under the token, its tenant open for it. -/
def lockedInvitation (q : AcceptInvitationCall) : TenancyTx TenantInvitationModel := do
  let locator ← read fun db => selectRow (hasToken q.tokenHash) db.invitations
  let locator ← orFail .invitationUnavailable locator
  let tenant ← read fun db => selectRow (isTenant locator.tenantId) db.identity.tenants
  let tenant ← orFail .invitationUnavailable tenant
  require (tenant.status ∈ [.pendingVerification,.active]) .invitationUnavailable
  let invitation ← read fun db => selectRow (fun i => i.tenantId == locator.tenantId &&
    hasToken q.tokenHash i) db.invitations
  let invitation ← orFail .invitationUnavailable invitation
  require (invitation.id = locator.id) .invitationUnavailable
  pure invitation

def checkedMember : Option TenantMembershipModel → TenancyTx (Option Membership)
  | none => pure none
  | some m => do
    let membership ← ofExcept .valueError (membershipOf m)
    pure (some membership)

def memberByUser (tenantId userId : UUID7) (d : Identity) : Option TenantMembershipModel :=
  selectRow (fun m => m.tenantId == tenantId && m.userId == userId) d.memberships

def offeredRoles (i : TenantInvitationModel) (db : TenancyDatabase) :
    Option (List (UUID7 × String)) :=
  invitedRoleCodes i.tenantId (sortedIds ((selectRows (fun a => a.tenantId == i.tenantId &&
    a.invitationId == i.id) db.invitationRoles).map
      TenantInvitationRoleAssignmentModel.tenantRoleId)) db.identity

def replayAcceptance (q : AcceptInvitationCall) (i : TenantInvitationModel)
    (roles : List (UUID7 × String)) (reference : IdempotencyResultReference) :
    TenancyTx InvitationAcceptanceResult := do
  require (reference.value.resultType = "membership") .invitationUnavailable
  let model ← read fun db =>
    selectRow (isMembership i.tenantId reference.value.resultId) db.identity.memberships
  let membership ← checkedMember model
  let membership ← orFail .invitationUnavailable membership
  require (membership.value.userId = q.actorUserId) .invitationUnavailable
  pure ⟨i.id,membership,sortedIds (roles.map Prod.fst),true⟩

def matchesTarget (i : TenantInvitationModel) (candidates : List VersionedBlindIndex) : Bool :=
  candidates.any fun c => i.targetBlindIndexKeyVersion == some c.keyVersion &&
    i.targetBlindIndex == c.digest

def acceptable (q : AcceptInvitationCall) (i : TenantInvitationModel) : Bool :=
  i.status == .pending && i.acceptedAt.isNone && i.revokedAt.isNone &&
  decide (q.now < i.expiresAt) && matchesTarget i (q.candidates i.targetKind)

def acceptedFields (q : AcceptInvitationCall) (i : TenantInvitationModel)
    (memberType : MemberType) : MembershipFields where
  id := q.membershipId
  tenantId := i.tenantId
  userId := q.actorUserId
  departmentId := none
  memberType := memberType
  status := .active
  validFrom := q.now
  validUntil := none
  authzVersion := 1
  version := 1

def addMembership (fields : MembershipFields) : TenancyTx Membership := do
  let membership ← ofExcept .valueError (postInit membershipChecks fields)
  zoom membershipsOf (insertRow .integrityError ⟨membership.value⟩)
  pure membership

def isInvited (tenantId membershipId : UUID7) (m : TenantMembershipModel) : Bool :=
  isMembership tenantId membershipId m && m.status == .invited

def activatedMember (now : Time) (m : TenantMembershipModel) : TenantMembershipModel :=
  {m with
    status := .active
    validFrom := now
    authzVersion := m.authzVersion+1
    version := m.version+1}

def activateMembership (membership : Membership) (now : Time) : TenancyTx Membership := do
  let changed ← zoom membershipsOf (updateRows .integrityError
    (isInvited membership.value.tenantId membership.value.id) (activatedMember now))
  require (changed = 1) (.runtimeError "invited membership disappeared")
  let model ← read fun db => selectRow (isMembership membership.value.tenantId
    membership.value.id) db.identity.memberships
  let model ← orFail (.runtimeError "invited membership disappeared") model
  ofExcept .valueError (membershipOf model)

def admitMember (q : AcceptInvitationCall) (i : TenantInvitationModel) (memberType : MemberType) :
    Option Membership → TenancyTx Membership
  | none => addMembership (acceptedFields q i memberType)
  | some m =>
    if m.value.status = .invited ∧ m.value.memberType = memberType then
      activateMembership m q.now
    else fail .invitationUnavailable

def consumable (i j : TenantInvitationModel) : Bool :=
  j.tenantId == i.tenantId && j.id == i.id && j.version == i.version && j.status == .pending

def consumed (now : Time) (i : TenantInvitationModel) : TenantInvitationModel :=
  {i with
    status := .accepted
    acceptedAt := some now
    version := i.version+1
    updatedAt := now}

def consume (i : TenantInvitationModel) (now : Time) : TenancyTx Unit := do
  require (i.targetBlindIndexKeyVersion.any (fun v => decide (1 ≤ v ∧ v ≤ 32767)) = true)
    (.valueError "invitation blind-index key version is invalid")
  let changed ← zoom invitationsOf
    (updateRows .integrityError (consumable i) (consumed now))
  require (changed = 1) (.runtimeError "invitation disappeared during acceptance")

def acceptNew (q : AcceptInvitationCall) (i : TenantInvitationModel)
    (membership : Option Membership) (roles : List (UUID7 × String))
    (reservation : IdempotencyReservation) : TenancyTx InvitationAcceptanceResult := do
  require (acceptable q i = true) .invitationUnavailable
  let ids := sortedIds (roles.map Prod.fst)
  let memberType ← orFail .invitationRoleDenied (memberTypeForRoles (roles.map Prod.snd))
  let admitted ← admitMember q i memberType membership
  replaceRoles i.tenantId admitted.value.id ids i.invitedByMembershipId
  consume i q.now
  let result ← ofExcept .valueError
    (postInit idempotencyResultChecks ⟨"membership",admitted.value.id,none,none⟩)
  within .idempotency recordsOf (complete reservation result q.now)
  pure ⟨i.id,admitted,ids,false⟩

def acceptInvitation (q : AcceptInvitationCall) : TenancyTx InvitationAcceptanceResult := do
  let invitation ← lockedInvitation q
  let active ← read fun db => lockActiveUser q.actorUserId db.identity
  let model ← read fun db => memberByUser invitation.tenantId q.actorUserId db.identity
  let membership ← checkedMember model
  let roles ← read (offeredRoles invitation)
  require (active = true) .invitationUnavailable
  let roles ← orFail .invitationUnavailable roles
  let reservation ← within .idempotency recordsOf (reserve (acceptRequest q))
  match reservation.replay with
  | some reference => replayAcceptance q invitation roles reference
  | none => acceptNew q invitation membership roles reservation

end LawyerAgent.Invitations
