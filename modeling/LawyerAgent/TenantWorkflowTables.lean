import LawyerAgent.IdempotencyRepository
import LawyerAgent.RolloutTables
import LawyerAgent.SessionTables

/-!
# Tables of the tenant workflows

Invitations with the roles they offer, and the outbox of authorization caches
to be invalidated, next to the tables of identities, sessions and idempotency.
-/

set_option autoImplicit false

namespace LawyerAgent.TenantWorkflowTables
open Relational Common IdentityTables SessionTables
open RolloutTables IdempotencyRepository

inductive AuthorizationCacheInvalidationStatus where
  | pending
  | processing
  | completed
deriving DecidableEq, Repr

structure AuthorizationCacheInvalidationOutboxModel where
  id : UUID7
  tenantId : UUID7
  membershipId : UUID7
  authzVersion : ℕ
  idempotencyRecordId : UUID7
  status : AuthorizationCacheInvalidationStatus := .pending
  attemptCount : ℕ := 0
  availableAt : Time
  processingStartedAt : Option Time := none
  claimToken : Option UUID7 := none
  completedAt : Option Time := none
  lastErrorCode : Option String := none
  version : ℕ := 1
  updatedAt : Time
deriving DecidableEq

inductive InvitationTargetKind where
  | phone
  | email
deriving DecidableEq, Repr

inductive InvitationStatus where
  | pending
  | accepted
  | revoked
  | expired
deriving DecidableEq, Repr

structure TenantInvitationModel where
  id : UUID7
  tenantId : UUID7
  targetKind : InvitationTargetKind
  targetBlindIndex : Digest
  targetBlindIndexKeyVersion : Option ℕ
  tokenHash : Digest
  invitedByMembershipId : UUID7
  expiresAt : Time
  acceptedAt : Option Time := none
  revokedAt : Option Time := none
  status : InvitationStatus := .pending
  version : ℕ := 1
  updatedAt : Time

structure TenantInvitationRoleAssignmentModel where
  tenantId : UUID7
  invitationId : UUID7
  tenantRoleId : UUID7

def authzCacheInvalidationOutbox :
    Schema AuthorizationCacheInvalidationOutboxModel UUID7 where
  key := fun o => o.id
  check := fun o => decide (1 ≤ o.authzVersion ∧ o.authzVersion ≤ integerMax) &&
    decide (o.attemptCount ≤ integerMax) && decide (o.version ≤ integerMax)
  clash := fun o p => o.tenantId == p.tenantId &&
    ((o.membershipId == p.membershipId && o.authzVersion == p.authzVersion) ||
      o.idempotencyRecordId == p.idempotencyRecordId)

def tenantInvitations : Schema TenantInvitationModel UUID7 where
  key := fun i => i.id
  check := fun i => i.targetBlindIndexKeyVersion.all (fun v => decide (1 ≤ v ∧ v ≤ 32767)) &&
    decide (i.version ≤ integerMax)
  clash := fun i j => i.tokenHash == j.tokenHash

def tenantInvitationRoleAssignments :
    Schema TenantInvitationRoleAssignmentModel (UUID7 × UUID7 × UUID7) where
  key := fun a => (a.tenantId,a.invitationId,a.tenantRoleId)
  check := fun _ => true
  clash := fun _ _ => false

structure TenancyDatabase where
  rollout : RolloutDatabase
  sessions : Table authSessions
  tokens : Table refreshTokenRecords
  records : Records
  cacheOutbox : Table authzCacheInvalidationOutbox
  invitations : Table tenantInvitations
  invitationRoles : Table tenantInvitationRoleAssignments

def TenancyDatabase.identity (db : TenancyDatabase) : Identity := db.rollout.identity

def rolloutOf : Lens TenancyDatabase RolloutDatabase where
  get := TenancyDatabase.rollout
  set := fun t s => {s with rollout := t}
  get_set := fun _ _ => rfl
  set_get := fun _ => rfl

def tenantsOf : Lens TenancyDatabase (Table tenants) where
  get := fun s => s.identity.tenants
  set := fun t s => {s with rollout := {s.rollout with identity := {s.identity with tenants := t}}}
  get_set := fun _ _ => rfl
  set_get := fun _ => rfl

def membershipsOf : Lens TenancyDatabase (Table tenantMemberships) where
  get := fun s => s.identity.memberships
  set := fun t s =>
    {s with rollout := {s.rollout with identity := {s.identity with memberships := t}}}
  get_set := fun _ _ => rfl
  set_get := fun _ => rfl

def assignmentsOf : Lens TenancyDatabase (Table membershipRoleAssignments) where
  get := fun s => s.identity.assignments
  set := fun t s =>
    {s with rollout := {s.rollout with identity := {s.identity with assignments := t}}}
  get_set := fun _ _ => rfl
  set_get := fun _ => rfl

def sessionsOf : Lens TenancyDatabase (Table authSessions) where
  get := TenancyDatabase.sessions
  set := fun t s => {s with sessions := t}
  get_set := fun _ _ => rfl
  set_get := fun _ => rfl

def tokensOf : Lens TenancyDatabase (Table refreshTokenRecords) where
  get := TenancyDatabase.tokens
  set := fun t s => {s with tokens := t}
  get_set := fun _ _ => rfl
  set_get := fun _ => rfl

def recordsOf : Lens TenancyDatabase Records where
  get := TenancyDatabase.records
  set := fun t s => {s with records := t}
  get_set := fun _ _ => rfl
  set_get := fun _ => rfl

def cacheOutboxOf : Lens TenancyDatabase (Table authzCacheInvalidationOutbox) where
  get := TenancyDatabase.cacheOutbox
  set := fun t s => {s with cacheOutbox := t}
  get_set := fun _ _ => rfl
  set_get := fun _ => rfl

def invitationsOf : Lens TenancyDatabase (Table tenantInvitations) where
  get := TenancyDatabase.invitations
  set := fun t s => {s with invitations := t}
  get_set := fun _ _ => rfl
  set_get := fun _ => rfl

def invitationRolesOf : Lens TenancyDatabase (Table tenantInvitationRoleAssignments) where
  get := TenancyDatabase.invitationRoles
  set := fun t s => {s with invitationRoles := t}
  get_set := fun _ _ => rfl
  set_get := fun _ => rfl

end LawyerAgent.TenantWorkflowTables
