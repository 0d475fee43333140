import LawyerAgent.SessionTables

/-!
# Session repository

Locating reads find a row before its locks are taken, locking reads find it
again under them. The lock order has no counterpart: a call is one transaction.
-/

set_option autoImplicit false

namespace LawyerAgent.SessionRepository
open Relational Common SessionDomain SessionTables
open IdentityTables Tenancy

inductive SessionFailure where
  | integrityError
  | runtimeError (message : String)
  | valueError (message : String)
  | invalidSession
deriving DecidableEq, Repr

abbrev SessionTx (α : Type) : Type := Tx SessionFailure SessionDatabase α

structure UserSessionState where
  userId : UUID7
  status : UserStatus
  authVersion : ℕ

structure TenantSessionState where
  tenantId : UUID7
  tenantStatus : TenantStatus
  membershipId : UUID7
  membershipUserId : UUID7
  membershipStatus : MembershipStatus
  validFrom : Time
  validUntil : Option Time
  authzVersion : ℕ

structure SessionValidationState where
  sessionId : UUID7
  userId : UUID7
  sessionTenantId : Option UUID7
  sessionMembershipId : Option UUID7
  currentFamilyId : UUID7
  authVersionAtIssue : ℕ
  authzVersionAtIssue : Option ℕ
  revokedAt : Option Time
  expiresAt : Time
  userStatus : UserStatus
  userAuthVersion : ℕ
  tenantStatus : Option TenantStatus
  membershipUserId : Option UUID7
  membershipStatus : Option MembershipStatus
  membershipValidFrom : Option Time
  membershipValidUntil : Option Time
  membershipAuthzVersion : Option ℕ

structure RefreshLockLocator where
  tokenId : UUID7
  familyId : UUID7
  sessionId : UUID7
  tenantId : Option UUID7

structure SessionLockLocator where
  sessionId : UUID7
  familyId : UUID7
  userId : UUID7
  tenantId : Option UUID7

structure NewSession where
  id : UUID7
  userId : UUID7
  tenantId : Option UUID7
  membershipId : Option UUID7
  familyId : UUID7
  authVersion : ℕ
  authzVersion : Option ℕ
  now : Time
  expiresAt : Time

structure NewRefreshToken where
  id : UUID7
  tokenHash : Digest
  familyId : UUID7
  sessionId : UUID7
  userId : UUID7
  tenantId : Option UUID7
  membershipId : Option UUID7
  issuedAt : Time
  expiresAt : Time
  idleExpiresAt : Time

def hasHash (tokenHash : Digest) (t : RefreshTokenRecordModel) : Bool := t.tokenHash == tokenHash

def isToken (tokenId : UUID7) (t : RefreshTokenRecordModel) : Bool := t.id == tokenId

def isSession (sessionId : UUID7) (s : AuthSessionModel) : Bool := s.id == sessionId

def getUser (userId : UUID7) (db : SessionDatabase) : Option UserSessionState :=
  (selectRow (isUser userId) db.identity.users).map fun u => ⟨u.id,u.status,u.authVersion⟩

def locateRefresh (tokenHash : Digest) (db : SessionDatabase) : Option RefreshLockLocator :=
  (selectRow (hasHash tokenHash) db.tokens).map fun t => ⟨t.id,t.familyId,t.sessionId,t.tenantId⟩

def lockRefresh (tokenHash : Digest) (db : SessionDatabase) : Option RefreshTokenRecordModel :=
  selectRow (hasHash tokenHash) db.tokens

def locateSession (sessionId : UUID7) (db : SessionDatabase) : Option SessionLockLocator :=
  (selectRow (isSession sessionId) db.sessions).map fun s =>
    ⟨s.id,s.currentFamilyId,s.userId,s.tenantId⟩

def acquireSessionFamily (sessionId : UUID7) (tenantIds : List (Option UUID7))
    (db : SessionDatabase) : Bool :=
  (tenantIds.filterMap id).all (tenantExists · db.identity) &&
  (selectRow (isSession sessionId) db.sessions).isSome

def getTenantContext (userId tenantId membershipId : UUID7) (db : SessionDatabase) :
    Option TenantSessionState := do
  let tenant ← selectRow (isTenant tenantId) db.identity.tenants
  let membership ← selectRow (fun m => isMembership tenantId membershipId m && m.userId == userId)
    db.identity.memberships
  some ⟨tenant.id,tenant.status,membership.id,membership.userId,membership.status,
    membership.validFrom,membership.validUntil,membership.authzVersion⟩

def lockTenantContext (userId tenantId membershipId : UUID7) (db : SessionDatabase) :
    Option TenantSessionState :=
  if userExists userId db.identity then getTenantContext userId tenantId membershipId db
  else none

def validationState (s : AuthSessionModel) (user : UserModel) (tenant : Option TenantModel)
    (membership : Option TenantMembershipModel) : SessionValidationState where
  sessionId := s.id
  userId := s.userId
  sessionTenantId := s.tenantId
  sessionMembershipId := s.membershipId
  currentFamilyId := s.currentFamilyId
  authVersionAtIssue := s.authVersionAtIssue
  authzVersionAtIssue := s.authzVersionAtIssue
  revokedAt := s.revokedAt
  expiresAt := s.expiresAt
  userStatus := user.status
  userAuthVersion := user.authVersion
  tenantStatus := tenant.map TenantModel.status
  membershipUserId := membership.map fun m => m.userId
  membershipStatus := membership.map fun m => m.status
  membershipValidFrom := membership.map fun m => m.validFrom
  membershipValidUntil := membership.bind fun m => m.validUntil
  membershipAuthzVersion := membership.map fun m => m.authzVersion

def getValidationState (sessionId : UUID7) (db : SessionDatabase) :
    Option SessionValidationState := do
  let s ← selectRow (isSession sessionId) db.sessions
  let user ← selectRow (isUser s.userId) db.identity.users
  let tenant := s.tenantId.bind fun tenantId => selectRow (isTenant tenantId) db.identity.tenants
  let membership := s.tenantId.bind fun tenantId => s.membershipId.bind fun membershipId =>
    selectRow (isMembership tenantId membershipId) db.identity.memberships
  some (validationState s user tenant membership)

def lockSession (sessionId : UUID7) (db : SessionDatabase) : Option SessionValidationState := do
  let locked ← selectRow (isSession sessionId) db.sessions
  getValidationState locked.id db

def sessionModel (s : NewSession) (currentTimestamp : Time) : AuthSessionModel where
  id := s.id
  userId := s.userId
  tenantId := s.tenantId
  membershipId := s.membershipId
  currentFamilyId := s.familyId
  authVersionAtIssue := s.authVersion
  authzVersionAtIssue := s.authzVersion
  lastSeenAt := s.now
  expiresAt := s.expiresAt
  updatedAt := currentTimestamp

def refreshModel (t : NewRefreshToken) (currentTimestamp : Time) : RefreshTokenRecordModel where
  id := t.id
  tokenHash := t.tokenHash
  familyId := t.familyId
  sessionId := t.sessionId
  userId := t.userId
  tenantId := t.tenantId
  membershipId := t.membershipId
  issuedAt := t.issuedAt
  expiresAt := t.expiresAt
  idleExpiresAt := t.idleExpiresAt
  updatedAt := currentTimestamp

def addSession (s : NewSession) (currentTimestamp : Time) : SessionTx Unit := do
  zoom sessionsOf (insertRow .integrityError (sessionModel s currentTimestamp))
  let refers ← read fun db => sessionRefers (sessionModel s currentTimestamp) db.identity
  require (refers = true) .integrityError

def addRefresh (t : NewRefreshToken) (currentTimestamp : Time) : SessionTx Unit := do
  zoom tokensOf (insertRow .integrityError (refreshModel t currentTimestamp))
  let refers ← read (tokenRefers (refreshModel t currentTimestamp))
  require (refers = true) .integrityError

def usedToken (now : Time) (t : RefreshTokenRecordModel) : RefreshTokenRecordModel :=
  {t with
    usedAt := some now
    version := t.version+1
    updatedAt := now}

def markRefreshUsed (tokenId : UUID7) (now : Time) : SessionTx Unit := do
  let changed ← zoom tokensOf (updateRows .integrityError (isToken tokenId) (usedToken now))
  require (changed = 1) (.runtimeError "locked refresh token disappeared")

def linkedToken (replacementId : UUID7) (now : Time) (t : RefreshTokenRecordModel) :
    RefreshTokenRecordModel :=
  {t with
    replacedById := some replacementId
    updatedAt := now}

def replacementRefers (t : RefreshTokenRecordModel) (tokens : Table refreshTokenRecords) : Bool :=
  t.replacedById.all fun id => tokens.rows.any fun u => u.id == id && u.sessionId == t.sessionId

def linkRefreshReplacement (tokenId replacementId : UUID7) (now : Time) : SessionTx Unit := do
  let changed ← zoom tokensOf
    (updateRows .integrityError (isToken tokenId) (linkedToken replacementId now))
  require (changed = 1) (.runtimeError "used refresh token disappeared")
  let refers ← read fun db =>
    (selectRows (isToken tokenId) db.tokens).all (replacementRefers · db.tokens)
  require (refers = true) .integrityError

def touchedSession (now expiresAt : Time) (s : AuthSessionModel) : AuthSessionModel :=
  {s with
    lastSeenAt := now
    expiresAt := expiresAt
    version := s.version+1
    updatedAt := now}

def touchSession (sessionId : UUID7) (now expiresAt : Time) : SessionTx Unit := do
  let changed ← zoom sessionsOf
    (updateRows .integrityError (isSession sessionId) (touchedSession now expiresAt))
  require (changed = 1) (.runtimeError "auth session disappeared during refresh")

def unrevokedOf (familyId : UUID7) (t : RefreshTokenRecordModel) : Bool :=
  t.familyId == familyId && t.revokedAt.isNone

def revokedToken (reason : RevocationReason) (now : Time) (t : RefreshTokenRecordModel) :
    RefreshTokenRecordModel :=
  {t with
    revokedAt := some now
    revocationReason := some reason
    version := t.version+1
    updatedAt := now}

def revokeFamily (familyId : UUID7) (reason : RevocationReason) (now : Time) :
    SessionTx Unit := do
  let _ ← zoom tokensOf
    (updateRows .integrityError (unrevokedOf familyId) (revokedToken reason now))

def unrevokedSession (sessionId : UUID7) (s : AuthSessionModel) : Bool :=
  isSession sessionId s && s.revokedAt.isNone

def revokedSession (reason : RevocationReason) (now : Time) (s : AuthSessionModel) :
    AuthSessionModel :=
  {s with
    revokedAt := some now
    revocationReason := some reason
    version := s.version+1
    updatedAt := now}

def revokeSession (sessionId : UUID7) (reason : RevocationReason) (now : Time) :
    SessionTx Unit := do
  let _ ← zoom sessionsOf
    (updateRows .integrityError (unrevokedSession sessionId) (revokedSession reason now))

end LawyerAgent.SessionRepository
