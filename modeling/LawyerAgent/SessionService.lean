import LawyerAgent.SessionRepository

/-!
# Session service

Start, refresh, revoke and tenant switch, each one transaction, and the
validation of an access token. A refresh that detects a replay or an invalid
token commits its revocations before it raises, so these are outcomes and not
failures. The keyed hash is a parameter, the encoding of an access token the
work of the token service.
-/

set_option autoImplicit false

namespace LawyerAgent.SessionService
open Relational Common SessionDomain SessionTables
open SessionRepository Tenancy

def accessTtl : Time := seconds 600

def refreshAbsoluteTtl : Time := hours (365*24)

def refreshIdleTtl : Time := refreshAbsoluteTtl

def refreshTokenChar (c : Char) : Bool := c.isAlphanum || c == '_' || c == '-'

/-- `[A-Za-z0-9_-]{43}` -/
def refreshTokenOk (raw : List Char) : Bool := raw.length == 43 && raw.all refreshTokenChar

def asciiBytes (text : List Char) : List UInt8 := text.map fun c => c.toNat.toUInt8

def refreshHash (hmac : List UInt8 → Digest) (raw : String) : Digest :=
  if refreshTokenOk raw.toList then
    hmac (asciiBytes "refresh:v1:".toList ++ asciiBytes raw.toList)
  else hmac (asciiBytes "refresh-invalid:v1".toList)

def refreshIsCurrent (t : RefreshTokenRecordModel) (now : Time) : Bool :=
  t.revokedAt.isNone && t.usedAt.isNone && decide (now < t.expiresAt) &&
  decide (now < t.idleExpiresAt)

def refreshMatchesState (t : RefreshTokenRecordModel) (state : SessionValidationState) : Bool :=
  t.sessionId == state.sessionId && t.userId == state.userId &&
  t.familyId == state.currentFamilyId && t.tenantId == state.sessionTenantId &&
  t.membershipId == state.sessionMembershipId

def refreshMatchesLocator (t : RefreshTokenRecordModel) (locator : RefreshLockLocator) : Bool :=
  t.id == locator.tokenId && t.familyId == locator.familyId &&
  t.sessionId == locator.sessionId && t.tenantId == locator.tenantId

def sessionMatchesLocator (state : SessionValidationState) (locator : SessionLockLocator) :
    Bool :=
  state.sessionId == locator.sessionId && state.currentFamilyId == locator.familyId &&
  state.userId == locator.userId && state.sessionTenantId == locator.tenantId

def tenantIsActive (tenant : TenantSessionState) (now : Time) : Bool :=
  tenant.tenantStatus == .active && tenant.membershipStatus == .active &&
  inForce tenant.validFrom tenant.validUntil now && decide (1 ≤ tenant.authzVersion)

def membershipInForce (state : SessionValidationState) (now : Time) : Bool :=
  state.membershipValidFrom.any fun validFrom =>
    inForce validFrom state.membershipValidUntil now

/-- Without claims only the state itself is judged. -/
def stateIsAuthoritative (state : SessionValidationState) (claims : Option AccessTokenFields)
    (now : Time) : Bool :=
  state.revokedAt.isNone && decide (now < state.expiresAt) && state.userStatus == .active &&
  state.authVersionAtIssue == state.userAuthVersion &&
  (claims.all fun c => c.userId == state.userId && c.sessionId == state.sessionId &&
    c.authVersion == state.userAuthVersion) &&
  match state.sessionTenantId with
  | none =>
    state.sessionMembershipId.isNone && state.authzVersionAtIssue.isNone &&
    claims.all fun c => c.audience == .account || c.audience == .platform
  | some tenantId =>
    state.sessionMembershipId.isSome && state.authzVersionAtIssue.isSome &&
    state.tenantStatus == some .active && state.membershipUserId == some state.userId &&
    state.membershipStatus == some .active && membershipInForce state now &&
    state.membershipAuthzVersion == state.authzVersionAtIssue &&
    claims.all fun c => c.audience == .tenant && c.tenantId == some tenantId &&
      c.membershipId == state.sessionMembershipId &&
      c.authzVersion == state.membershipAuthzVersion

/-- What is drawn for a new session. -/
structure SessionDraw where
  sessionId : UUID7
  familyId : UUID7
  refreshId : UUID7
  rawRefresh : String
  accessTokenId : UUID7

/-- What is drawn for the replacement of a refresh token. -/
structure RefreshDraw where
  refreshId : UUID7
  rawRefresh : String
  accessTokenId : UUID7

structure SessionResult where
  sessionId : UUID7
  familyId : UUID7
  accessToken : AccessTokenClaims
  refreshToken : String

inductive RefreshOutcome where
  | rotated (result : SessionResult)
  | replayed
  | invalid

def newSession (user : UserSessionState) (tenant : Option TenantSessionState) (draw : SessionDraw)
    (now : Time) : NewSession where
  id := draw.sessionId
  userId := user.userId
  tenantId := tenant.map TenantSessionState.tenantId
  membershipId := tenant.map TenantSessionState.membershipId
  familyId := draw.familyId
  authVersion := user.authVersion
  authzVersion := tenant.map TenantSessionState.authzVersion
  now := now
  expiresAt := now+refreshAbsoluteTtl

def newRefresh (hmac : List UInt8 → Digest) (s : NewSession) (draw : SessionDraw) (now : Time) :
    NewRefreshToken where
  id := draw.refreshId
  tokenHash := refreshHash hmac draw.rawRefresh
  familyId := s.familyId
  sessionId := s.id
  userId := s.userId
  tenantId := s.tenantId
  membershipId := s.membershipId
  issuedAt := now
  expiresAt := now+refreshAbsoluteTtl
  idleExpiresAt := now+refreshIdleTtl

def issueAccess (s : NewSession) (accessTokenId : UUID7) (now : Time) :
    Except String AccessTokenClaims :=
  postInit accessTokenChecks {
    userId := s.userId
    sessionId := s.id
    tokenId := accessTokenId
    audience := if s.tenantId.isNone then .account else .tenant
    issuedAt := now
    notBefore := now
    expiresAt := now+accessTtl
    authVersion := s.authVersion
    tenantId := s.tenantId
    membershipId := s.membershipId
    authzVersion := s.authzVersion}

def sessionFromState (state : SessionValidationState) (now : Time) : NewSession where
  id := state.sessionId
  userId := state.userId
  tenantId := state.sessionTenantId
  membershipId := state.sessionMembershipId
  familyId := state.currentFamilyId
  authVersion := state.userAuthVersion
  authzVersion := state.membershipAuthzVersion
  now := now
  expiresAt := state.expiresAt

section Operations

variable (hmac : List UInt8 → Digest)

def addMaterial (s : NewSession) (draw : SessionDraw) (now currentTimestamp : Time) :
    SessionTx SessionResult := do
  let access ← ofExcept .valueError (issueAccess s draw.accessTokenId now)
  addSession s currentTimestamp
  addRefresh (newRefresh hmac s draw now) currentTimestamp
  pure ⟨s.id,s.familyId,access,draw.rawRefresh⟩

def start (userId : UUID7) (draw : SessionDraw) (now currentTimestamp : Time) :
    SessionTx SessionResult := do
  let user ← read (getUser userId)
  let user ← orFail .invalidSession user
  require (user.status = .active) .invalidSession
  addMaterial hmac (newSession user none draw now) draw now currentTimestamp

/-- The token with this hash, located, locked and found to be the same. -/
def lockCurrent (tokenHash : Digest) : SessionTx (Option RefreshTokenRecordModel) := do
  let locator ← read (locateRefresh tokenHash)
  match locator with
  | none => pure none
  | some locator => do
    let acquired ← read (acquireSessionFamily locator.sessionId [locator.tenantId])
    if acquired then
      let current ← read (lockRefresh tokenHash)
      pure (current.filter (refreshMatchesLocator · locator))
    else pure none

def revokeBoth (familyId sessionId : UUID7) (reason : RevocationReason) (now : Time) :
    SessionTx Unit := do
  revokeFamily familyId reason now
  revokeSession sessionId reason now

def replacement (current : RefreshTokenRecordModel) (draw : RefreshDraw) (now : Time) :
    NewRefreshToken where
  id := draw.refreshId
  tokenHash := refreshHash hmac draw.rawRefresh
  familyId := current.familyId
  sessionId := current.sessionId
  userId := current.userId
  tenantId := current.tenantId
  membershipId := current.membershipId
  issuedAt := now
  expiresAt := now+refreshAbsoluteTtl
  idleExpiresAt := now+refreshIdleTtl

def rotate (current : RefreshTokenRecordModel) (state : SessionValidationState)
    (draw : RefreshDraw) (now currentTimestamp : Time) : SessionTx RefreshOutcome := do
  markRefreshUsed current.id now
  addRefresh (replacement hmac current draw now) currentTimestamp
  linkRefreshReplacement current.id draw.refreshId now
  touchSession current.sessionId now (now+refreshAbsoluteTtl)
  let access ← ofExcept .valueError
    (issueAccess (sessionFromState state now) draw.accessTokenId now)
  pure (.rotated ⟨current.sessionId,current.familyId,access,draw.rawRefresh⟩)

def refresh (rawToken : String) (draw : RefreshDraw) (now currentTimestamp : Time) :
    SessionTx RefreshOutcome := do
  let current ← lockCurrent (refreshHash hmac rawToken)
  match current with
  | none => pure .invalid
  | some current =>
    if current.usedAt.isSome then do
      revokeBoth current.familyId current.sessionId .refreshReplay now
      pure .replayed
    else if refreshIsCurrent current now = false then do
      revokeBoth current.familyId current.sessionId .refreshInvalid now
      pure .invalid
    else do
      let state ← read (getValidationState current.sessionId)
      match state.filter fun state =>
          stateIsAuthoritative state none now && refreshMatchesState current state with
      | none => do
        revokeBoth current.familyId current.sessionId .authoritativeStateChanged now
        pure .invalid
      | some state => rotate hmac current state draw now currentTimestamp

def revoke (sessionId : UUID7) (reason : RevocationReason) (now : Time) : SessionTx Unit := do
  let locator ← read (locateSession sessionId)
  match locator with
  | none => pure ()
  | some locator => do
    let acquired ← read (acquireSessionFamily locator.sessionId [locator.tenantId])
    let state ← read (getValidationState sessionId)
    match state.filter fun state => acquired && sessionMatchesLocator state locator with
    | none => pure ()
    | some state => revokeBoth state.currentFamilyId sessionId reason now

structure SwitchTenantCommand where
  sessionId : UUID7
  tenantId : UUID7
  membershipId : UUID7

def switchTenant (found : Option SessionLockLocator) (command : SwitchTenantCommand)
    (draw : SessionDraw) (now currentTimestamp : Time) : SessionTx SessionResult := do
  let locator ← orFail .invalidSession found
  let acquired ← read (acquireSessionFamily locator.sessionId
    [locator.tenantId,some command.tenantId])
  require (acquired = true) .invalidSession
  let tenant ← read (lockTenantContext locator.userId command.tenantId command.membershipId)
  let current ← read (lockSession command.sessionId)
  let current ← orFail .invalidSession (current.filter fun state =>
    sessionMatchesLocator state locator && stateIsAuthoritative state none now)
  let tenant ← orFail .invalidSession (tenant.filter (tenantIsActive · now))
  revokeBoth current.currentFamilyId current.sessionId .tenantSwitched now
  let user : UserSessionState := ⟨current.userId,current.userStatus,current.userAuthVersion⟩
  addMaterial hmac (newSession user (some tenant) draw now) draw now currentTimestamp

end Operations

structure ValidatedSession where
  userId : UUID7
  sessionId : UUID7
  tenantId : Option UUID7
  membershipId : Option UUID7
deriving DecidableEq

/-- A cache answers with any content or fails; a time to live of zero turns it off. -/
structure ValidationCache where
  get : UUID7 → Except Unit (Option SessionValidationState)
  ttlSeconds : ℕ := 60

def readCachedState (cache : Option ValidationCache) (sessionId : UUID7) :
    Option SessionValidationState :=
  match cache with
  | none => none
  | some cache =>
    if cache.ttlSeconds = 0 then none
    else
      match cache.get sessionId with
      | .error _ => none
      | .ok state => state

def validated (state : SessionValidationState) : ValidatedSession :=
  ⟨state.userId,state.sessionId,state.sessionTenantId,state.sessionMembershipId⟩

/-- The context of a tenant token that was derived from an account session. -/
def derivedContext (state : SessionValidationState) (claims : AccessTokenFields)
    (db : SessionDatabase) (now : Time) : Option ValidatedSession := do
  let tenantId ← claims.tenantId
  let membershipId ← claims.membershipId
  let tenant ← getTenantContext state.userId tenantId membershipId db
  if stateIsAuthoritative state none now && claims.sessionId == state.sessionId &&
      claims.userId == state.userId && claims.authVersion == state.userAuthVersion &&
      tenantIsActive tenant now && tenant.membershipUserId == state.userId &&
      tenant.tenantId == tenantId && tenant.membershipId == membershipId &&
      claims.authzVersion == some tenant.authzVersion then
    some ⟨state.userId,state.sessionId,some tenant.tenantId,some tenant.membershipId⟩
  else none

def validateTenantAccess (claims : AccessTokenFields) (db : SessionDatabase) (now : Time) :
    Option ValidatedSession := do
  let state ← getValidationState claims.sessionId db
  if state.sessionTenantId.isNone then derivedContext state claims db now
  else if stateIsAuthoritative state (some claims) now then some (validated state)
  else none

/-- A positive cache entry never replaces the database check. What the load
writes back to the cache is not read by the call. -/
def validateCachedAccess (cache : Option ValidationCache) (claims : AccessTokenFields)
    (db : SessionDatabase) (now : Time) : Option ValidatedSession := do
  let cached := readCachedState cache claims.sessionId
  if cached.any fun state => !stateIsAuthoritative state (some claims) now then none
  else
    let state ← getValidationState claims.sessionId db
    if stateIsAuthoritative state (some claims) now then some (validated state) else none

def validateAccess (verify : String → Audience → Time → Option AccessTokenClaims)
    (cache : Option ValidationCache) (encoded : String) (audience : Audience) (now : Time)
    (db : SessionDatabase) : Except SessionFailure ValidatedSession :=
  match verify encoded audience now with
  | none => .error .invalidSession
  | some claims =>
    let principal :=
      if audience = .tenant then validateTenantAccess claims.value db now
      else validateCachedAccess cache claims.value db now
    match principal with
    | none => .error .invalidSession
    | some principal => .ok principal

end LawyerAgent.SessionService
