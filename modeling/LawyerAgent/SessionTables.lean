import LawyerAgent.IdentityTables

/-!
# Session domain

The claims of an access token, with the checks their constructor makes, and
the reasons a session or a refresh token is revoked for.
-/

set_option autoImplicit false

namespace LawyerAgent.SessionDomain
open Common

inductive Audience where
  | account
  | tenant
  | platform
  | stepUp
deriving DecidableEq, Repr

inductive RevocationReason where
  | logout
  | userDisabled
  | passwordChanged
  | membershipRevoked
  | authorizationChanged
  | adminRevoked
  | refreshInvalid
  | authoritativeStateChanged
  | refreshReplay
  | tenantSwitched
deriving DecidableEq, Repr

structure AccessTokenFields where
  userId : UUID7
  sessionId : UUID7
  tokenId : UUID7
  audience : Audience
  issuedAt : Time
  notBefore : Time
  expiresAt : Time
  authVersion : ℕ
  tenantId : Option UUID7 := none
  membershipId : Option UUID7 := none
  authzVersion : Option ℕ := none

def maximumLifetime (audience : Audience) : Time :=
  if audience = .platform then seconds 300 else seconds 600

def accessTokenChecks : Checks AccessTokenFields := fun c =>
  [(c.audience ≠ .stepUp,"step-up audience is reserved for a single-use grant"),
   (c.issuedAt ≤ c.notBefore ∧ c.notBefore < c.expiresAt,"token time window is invalid"),
   (c.expiresAt-c.issuedAt ≤ maximumLifetime c.audience,
    "token lifetime exceeds the audience policy"),
   (1 ≤ c.authVersion,"auth_version must be a positive integer"),
   (c.audience = .tenant → c.tenantId.isSome ∧ c.membershipId.isSome ∧ c.authzVersion.isSome,
    "tenant token requires complete tenant context"),
   (c.audience = .tenant → c.authzVersion.all (decide <| 1 ≤ ·),
    "tenant authz_version must be a positive integer"),
   (c.audience ≠ .tenant → c.tenantId.isNone ∧ c.membershipId.isNone ∧ c.authzVersion.isNone,
    "non-tenant token cannot contain tenant context")]

abbrev AccessTokenClaims : Type := Checked accessTokenChecks

theorem claims_context {c : AccessTokenClaims} (h : c.value.audience ≠ .tenant) :
    c.value.tenantId = none ∧ c.value.membershipId = none ∧ c.value.authzVersion = none := by
  have hmem : (decide (c.value.audience ≠ .tenant → c.value.tenantId.isNone ∧
      c.value.membershipId.isNone ∧ c.value.authzVersion.isNone),
      "non-tenant token cannot contain tenant context") ∈ accessTokenChecks c.value := by
    simp only [accessTokenChecks,List.mem_cons,true_or,or_true]
  have hnone := of_decide_eq_true (firstError_none c.valid hmem) h
  simpa only [Option.isNone_iff_eq_none] using hnone

theorem claims_tenant {c : AccessTokenClaims} {tenantId : UUID7}
    (h : c.value.tenantId = some tenantId) : c.value.audience = .tenant := by
  by_contra hne
  rw [(claims_context hne).1] at h
  cases h

end LawyerAgent.SessionDomain

namespace LawyerAgent.SessionTables
open Relational Common SessionDomain IdentityTables

structure AuthSessionModel where
  id : UUID7
  userId : UUID7
  tenantId : Option UUID7
  membershipId : Option UUID7
  currentFamilyId : UUID7
  authVersionAtIssue : ℕ
  authzVersionAtIssue : Option ℕ
  revokedAt : Option Time := none
  revocationReason : Option RevocationReason := none
  lastSeenAt : Time
  expiresAt : Time
  version : ℕ := 1
  updatedAt : Time

structure RefreshTokenRecordModel where
  id : UUID7
  tokenHash : Digest
  familyId : UUID7
  sessionId : UUID7
  userId : UUID7
  tenantId : Option UUID7
  membershipId : Option UUID7
  issuedAt : Time
  expiresAt : Time
  idleExpiresAt : Time
  usedAt : Option Time := none
  revokedAt : Option Time := none
  replacedById : Option UUID7 := none
  revocationReason : Option RevocationReason := none
  version : ℕ := 1
  updatedAt : Time

def authSessions : Schema AuthSessionModel UUID7 where
  key := fun s => s.id
  check := fun s =>
    (s.tenantId.isNone && s.membershipId.isNone && s.authzVersionAtIssue.isNone) ||
    (s.tenantId.isSome && s.membershipId.isSome && s.authzVersionAtIssue.isSome)
  clash := fun _ _ => false

def refreshTokenRecords : Schema RefreshTokenRecordModel UUID7 where
  key := fun t => t.id
  check := fun t => t.tenantId.isNone == t.membershipId.isNone
  clash := fun t u => t.tokenHash == u.tokenHash

structure SessionDatabase where
  identity : Identity
  sessions : Table authSessions
  tokens : Table refreshTokenRecords

def sessionsOf : Lens SessionDatabase (Table authSessions) where
  get := SessionDatabase.sessions
  set := fun t s => {s with sessions := t}
  get_set := fun _ _ => rfl
  set_get := fun _ => rfl

def tokensOf : Lens SessionDatabase (Table refreshTokenRecords) where
  get := SessionDatabase.tokens
  set := fun t s => {s with tokens := t}
  get_set := fun _ _ => rfl
  set_get := fun _ => rfl

def tenantExists (tenantId : UUID7) (d : Identity) : Bool :=
  (selectRow (isTenant tenantId) d.tenants).isSome

def userExists (userId : UUID7) (d : Identity) : Bool :=
  (selectRow (isUser userId) d.users).isSome

/-- The membership of a tenant context, with its user. -/
def memberExists (tenantId membershipId : Option UUID7) (userId : UUID7) (d : Identity) : Bool :=
  match tenantId, membershipId with
  | some tenantId, some membershipId =>
    (selectRow (fun m => isMembership tenantId membershipId m && m.userId == userId)
      d.memberships).isSome
  | _, _ => true

def sessionRefers (s : AuthSessionModel) (d : Identity) : Bool :=
  userExists s.userId d && s.tenantId.all (tenantExists · d) &&
  memberExists s.tenantId s.membershipId s.userId d

/-- A token without a tenant is not held to the tenant of its session. -/
def tokenRefers (t : RefreshTokenRecordModel) (db : SessionDatabase) : Bool :=
  userExists t.userId db.identity && t.tenantId.all (tenantExists · db.identity) &&
  memberExists t.tenantId t.membershipId t.userId db.identity &&
  (selectRow (fun s => s.id == t.sessionId && s.userId == t.userId &&
    (t.tenantId.isNone || s.tenantId == t.tenantId)) db.sessions).isSome

end LawyerAgent.SessionTables
