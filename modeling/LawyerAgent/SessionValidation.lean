import LawyerAgent.SessionService

/-!
# Session validation

An access token validates only against the database: every condition below is
read from its rows, and the answer of the cache can only turn a token away.
-/

set_option autoImplicit false

namespace LawyerAgent.SessionValidation
open Relational Common SessionDomain SessionTables
open SessionRepository SessionService IdentityTables
open Tenancy

/-- The rows that stand behind the session and the user of a token. -/
structure SessionBacked (claims : AccessTokenFields) (now : Time) (db : SessionDatabase) :
    Prop where
  session : ∃ s ∈ db.sessions, s.id = claims.sessionId ∧ s.userId = claims.userId ∧
    s.revokedAt = none ∧ now < s.expiresAt
  user : ∃ u ∈ db.identity.users, u.id = claims.userId ∧ u.status = .active ∧
    u.authVersion = claims.authVersion

/-- The rows that stand behind the tenant context of a token. -/
structure TenantBacked (claims : AccessTokenFields) (now : Time) (identity : Identity) :
    Prop where
  tenant : ∃ t ∈ identity.tenants, claims.tenantId = some t.id ∧ t.status = .active
  membership : ∃ m ∈ identity.memberships, claims.tenantId = some m.tenantId ∧
    claims.membershipId = some m.id ∧ m.userId = claims.userId ∧ m.status = .active ∧
    inForce m.validFrom m.validUntil now = true ∧ claims.authzVersion = some m.authzVersion

/-- The tenant and the membership of a session's own tenant context. -/
def sessionTenant (s : AuthSessionModel) (d : Identity) : Option TenantModel :=
  s.tenantId.bind fun tenantId => selectRow (isTenant tenantId) d.tenants

def sessionMembership (s : AuthSessionModel) (d : Identity) : Option TenantMembershipModel :=
  s.tenantId.bind fun tenantId => s.membershipId.bind fun membershipId =>
    selectRow (isMembership tenantId membershipId) d.memberships

structure StateRows (sessionId : UUID7) (db : SessionDatabase) (state : SessionValidationState)
    (s : AuthSessionModel) (user : UserModel) : Prop where
  session : s ∈ db.sessions
  sessionKey : s.id = sessionId
  account : user ∈ db.identity.users
  accountKey : user.id = s.userId
  read : state = validationState s user (sessionTenant s db.identity)
    (sessionMembership s db.identity)

variable {db : SessionDatabase} {state : SessionValidationState} {now : Time}
  {claims : AccessTokenFields} {principal : ValidatedSession} {cache : Option ValidationCache}
  {verify : String → Audience → Time → Option AccessTokenClaims}

theorem getValidationState_some {sessionId : UUID7}
    (h : getValidationState sessionId db = some state) :
    ∃ s user, StateRows sessionId db state s user := by
  simp only [getValidationState,bind,Option.bind_eq_some_iff] at h
  obtain ⟨s,hs,user,hu,hstate⟩ := h
  obtain ⟨hmem,hid⟩ := selectRow_some hs
  obtain ⟨humem,huid⟩ := selectRow_some hu
  exact ⟨s,user,hmem,eq_of_beq hid,humem,eq_of_beq huid,(Option.some.inj hstate).symm⟩

theorem getTenantContext_some {userId tenantId membershipId : UUID7} {tenant : TenantSessionState}
    (h : getTenantContext userId tenantId membershipId db = some tenant) :
    ∃ t ∈ db.identity.tenants, ∃ m ∈ db.identity.memberships, t.id = tenantId ∧
      m.tenantId = tenantId ∧ m.id = membershipId ∧ m.userId = userId ∧
      tenant = ⟨t.id,t.status,m.id,m.userId,m.status,m.validFrom,m.validUntil,
        m.authzVersion⟩ := by
  simp only [getTenantContext,bind,Option.bind_eq_some_iff] at h
  obtain ⟨t,ht,m,hm,htenant⟩ := h
  obtain ⟨htmem,htid⟩ := selectRow_some ht
  obtain ⟨hmmem,hmid⟩ := selectRow_some hm
  simp only [isMembership,Bool.and_eq_true,beq_iff_eq] at hmid
  exact ⟨t,htmem,m,hmmem,eq_of_beq htid,hmid.1.1,hmid.1.2,hmid.2,(Option.some.inj htenant).symm⟩

/-- The part of the check that does not look at a tenant. -/
theorem authoritative_live {claims : Option AccessTokenFields}
    (h : stateIsAuthoritative state claims now = true) :
    state.revokedAt = none ∧ now < state.expiresAt ∧ state.userStatus = .active := by
  simp only [stateIsAuthoritative,Bool.and_eq_true,Option.isNone_iff_eq_none,
    decide_eq_true_eq,beq_iff_eq] at h
  exact ⟨h.1.1.1.1.1,h.1.1.1.1.2,h.1.1.1.2⟩

theorem authoritative_claims (h : stateIsAuthoritative state (some claims) now = true) :
    claims.userId = state.userId ∧ claims.sessionId = state.sessionId ∧
    claims.authVersion = state.userAuthVersion := by
  simp only [stateIsAuthoritative,Bool.and_eq_true,Option.all_some,beq_iff_eq] at h
  exact ⟨h.1.2.1.1,h.1.2.1.2,h.1.2.2⟩

theorem authoritative_account (h : stateIsAuthoritative state (some claims) now = true)
    (hnone : state.sessionTenantId = none) :
    claims.audience ≠ .tenant ∧ state.sessionMembershipId = none := by
  simp only [stateIsAuthoritative,hnone,Bool.and_eq_true,Option.all_some,Bool.or_eq_true,
    beq_iff_eq,Option.isNone_iff_eq_none] at h
  refine ⟨fun hc => ?_,h.2.1.1⟩
  rw [hc] at h
  simp at h

theorem authoritative_tenant {tenantId : UUID7}
    (h : stateIsAuthoritative state (some claims) now = true)
    (hsome : state.sessionTenantId = some tenantId) :
    (state.tenantStatus = some .active ∧ state.membershipUserId = some state.userId ∧
      state.membershipStatus = some .active ∧ membershipInForce state now = true) ∧
    claims.audience = .tenant ∧ claims.tenantId = some tenantId ∧
    claims.membershipId = state.sessionMembershipId ∧
    claims.authzVersion = state.membershipAuthzVersion := by
  simp only [stateIsAuthoritative,hsome,Bool.and_eq_true,Option.all_some,beq_iff_eq] at h
  obtain ⟨-,⟨⟨⟨⟨⟨-,hts⟩,hmu⟩,hms⟩,hforce⟩,-⟩,⟨⟨hau,hti⟩,hmi⟩,hav⟩ := h
  exact ⟨⟨hts,hmu,hms,hforce⟩,hau,hti,hmi,hav⟩

theorem rows_backed {s : AuthSessionModel} {user : UserModel} {token : Option AccessTokenFields}
    (hrows : StateRows claims.sessionId db state s user)
    (h : stateIsAuthoritative state token now = true) (huser : claims.userId = state.userId)
    (hversion : claims.authVersion = state.userAuthVersion) :
    SessionBacked claims now db := by
  obtain ⟨hrevoked,hexpiry,hstatus⟩ := authoritative_live h
  rw [hrows.read] at hrevoked hexpiry hstatus huser hversion
  exact ⟨⟨s,hrows.session,hrows.sessionKey,huser.symm,hrevoked,hexpiry⟩,
    ⟨user,hrows.account,hrows.accountKey.trans huser.symm,hstatus,hversion.symm⟩⟩

theorem rows_tenant {s : AuthSessionModel} {user : UserModel} {tenantId : UUID7}
    (hrows : StateRows claims.sessionId db state s user)
    (h : stateIsAuthoritative state (some claims) now = true)
    (hsome : state.sessionTenantId = some tenantId) :
    TenantBacked claims now db.identity := by
  obtain ⟨⟨hts,hmu,hms,hforce⟩,-,htenant,hmembership,hversion⟩ := authoritative_tenant h hsome
  obtain ⟨huser,-,-⟩ := authoritative_claims h
  rw [hrows.read] at hsome hts hmu hms hforce hmembership hversion huser
  simp only [validationState] at hsome hts hmu hms hmembership hversion huser
  obtain ⟨t,ht,htstatus⟩ := Option.map_eq_some_iff.mp hts
  obtain ⟨m,hm,hmstatus⟩ := Option.map_eq_some_iff.mp hms
  rw [hm] at hmu hversion
  simp only [validationState,membershipInForce,hm,Option.map_some,Option.any_some,
    Option.bind_some] at hforce
  simp only [sessionTenant,hsome,Option.bind_some] at ht
  obtain ⟨htmem,htid⟩ := selectRow_some ht
  simp only [sessionMembership,hsome,Option.bind_some,Option.bind_eq_some_iff] at hm
  obtain ⟨membershipId,hmid,hm⟩ := hm
  obtain ⟨hmmem,hmp⟩ := selectRow_some hm
  simp only [isMembership,Bool.and_eq_true,beq_iff_eq] at hmp
  refine ⟨⟨t,htmem,?_,htstatus⟩,
    ⟨m,hmmem,?_,?_,(Option.some.inj hmu).trans huser.symm,hmstatus,hforce,hversion⟩⟩
  · rw [htenant,eq_of_beq htid]
  · rw [htenant,hmp.1]
  · rw [hmembership,hmid,hmp.2]

/-- The user, the session and the context a token names. -/
def claimed (claims : AccessTokenFields) : ValidatedSession :=
  ⟨claims.userId,claims.sessionId,claims.tenantId,claims.membershipId⟩

structure Valid (claims : AccessTokenFields) (now : Time) (db : SessionDatabase)
    (principal : ValidatedSession) : Prop where
  session : SessionBacked claims now db
  tenant : claims.audience = .tenant → TenantBacked claims now db.identity
  principal : principal = claimed claims

theorem state_valid {claims : AccessTokenClaims}
    (hread : getValidationState claims.value.sessionId db = some state)
    (h : stateIsAuthoritative state (some claims.value) now = true) :
    Valid claims.value now db (validated state) := by
  obtain ⟨s,user,hrows⟩ := getValidationState_some hread
  obtain ⟨huser,hsession,hversion⟩ := authoritative_claims h
  have hbacked := rows_backed hrows h huser hversion
  cases htenant : state.sessionTenantId with
  | none =>
    obtain ⟨hne,hmembership⟩ := authoritative_account h htenant
    obtain ⟨hct,hcm,-⟩ := claims_context hne
    refine ⟨hbacked,fun ht => absurd ht hne,?_⟩
    rw [validated,claimed,huser,hsession,htenant,hmembership,hct,hcm]
  | some tenantId =>
    obtain ⟨-,-,hct,hcm,-⟩ := authoritative_tenant h htenant
    refine ⟨hbacked,fun _ => rows_tenant hrows h htenant,?_⟩
    rw [validated,claimed,huser,hsession,htenant,hct,hcm]

theorem derived_valid (hread : getValidationState claims.sessionId db = some state)
    (h : derivedContext state claims db now = some principal) :
    Valid claims now db principal := by
  obtain ⟨s,user,hrows⟩ := getValidationState_some hread
  simp only [derivedContext,bind,Option.bind_eq_some_iff,Option.ite_none_right_eq_some] at h
  obtain ⟨tenantId,htenantId,membershipId,hmembershipId,tenant,htenant,hchecks,hprincipal⟩ := h
  obtain ⟨t,ht,m,hm,htid,hmt,hmid,hmuser,rfl⟩ := getTenantContext_some htenant
  simp only [Bool.and_eq_true,beq_iff_eq,tenantIsActive,decide_eq_true_eq] at hchecks
  obtain ⟨⟨⟨⟨⟨⟨⟨⟨hlive,hsession⟩,huser⟩,hversion⟩,⟨⟨⟨hts,hms⟩,hforce⟩,-⟩⟩,-⟩,-⟩,-⟩,hauthz⟩ :=
    hchecks
  refine ⟨rows_backed hrows hlive huser hversion,fun _ => ⟨⟨t,ht,?_,hts⟩,
    ⟨m,hm,?_,?_,hmuser.trans huser.symm,hms,hforce,hauthz⟩⟩,?_⟩
  · rw [htenantId,htid]
  · rw [htenantId,hmt]
  · rw [hmembershipId,hmid]
  · rw [← Option.some.inj hprincipal,claimed,huser,hsession,htenantId,hmembershipId,htid,hmid]

theorem tenantAccess_valid {claims : AccessTokenClaims}
    (h : validateTenantAccess claims.value db now = some principal) :
    Valid claims.value now db principal := by
  simp only [validateTenantAccess,bind,Option.bind_eq_some_iff] at h
  obtain ⟨state,hread,h⟩ := h
  by_cases htenant : state.sessionTenantId.isNone
  · rw [if_pos htenant] at h
    exact derived_valid hread h
  · rw [if_neg htenant,Option.ite_none_right_eq_some] at h
    rw [← Option.some.inj h.2]
    exact state_valid hread h.1

theorem tenantAccess_audience {claims : AccessTokenClaims}
    (h : validateTenantAccess claims.value db now = some principal) :
    claims.value.audience = .tenant := by
  simp only [validateTenantAccess,bind,Option.bind_eq_some_iff] at h
  obtain ⟨state,-,h⟩ := h
  cases htenant : state.sessionTenantId with
  | none =>
    simp only [htenant,Option.isNone_none,if_true,derivedContext,bind,
      Option.bind_eq_some_iff] at h
    obtain ⟨tenantId,hclaim,-⟩ := h
    exact claims_tenant hclaim
  | some tenantId =>
    simp only [htenant,Option.isNone_some,Bool.false_eq_true,if_false,
      Option.ite_none_right_eq_some] at h
    exact (authoritative_tenant h.1 htenant).2.1

theorem cachedAccess_some (h : validateCachedAccess cache claims db now = some principal) :
    ∃ state, getValidationState claims.sessionId db = some state ∧
      stateIsAuthoritative state (some claims) now = true ∧ validated state = principal := by
  simp only [validateCachedAccess,bind] at h
  obtain ⟨-,h⟩ := Option.ite_none_left_eq_some.mp h
  obtain ⟨state,hread,h⟩ := Option.bind_eq_some_iff.mp h
  obtain ⟨hstate,hprincipal⟩ := Option.ite_none_right_eq_some.mp h
  exact ⟨state,hread,hstate,Option.some.inj hprincipal⟩

theorem cachedAccess_empty (hempty : readCachedState cache claims.sessionId = none)
    (hread : getValidationState claims.sessionId db = some state)
    (hstate : stateIsAuthoritative state (some claims) now = true) :
    validateCachedAccess cache claims db now = some (validated state) := by
  simp [validateCachedAccess,hempty,hread,hstate]

def emptyCache (ttlSeconds : ℕ) : ValidationCache := ⟨fun _ => .ok none,ttlSeconds⟩

theorem emptyCache_read (ttlSeconds : ℕ) (sessionId : UUID7) :
    readCachedState (some (emptyCache ttlSeconds)) sessionId = none := by
  change (if ttlSeconds = 0 then none else none) = none
  exact ite_self none

theorem validateAccess_ok {encoded : String} {audience : Audience} :
    validateAccess verify cache encoded audience now db = .ok principal ↔
      ∃ claims, verify encoded audience now = some claims ∧
        (if audience = .tenant then validateTenantAccess claims.value db now
          else validateCachedAccess cache claims.value db now) = some principal := by
  unfold validateAccess
  cases verify encoded audience now with
  | none => simp
  | some claims =>
    simp only [Option.some.injEq,exists_eq_left']
    cases (if audience = .tenant then validateTenantAccess claims.value db now
      else validateCachedAccess cache claims.value db now) <;> simp

theorem validateAccess_valid {encoded : String} {audience : Audience} {claims : AccessTokenClaims}
    (hclaims : verify encoded audience now = some claims)
    (h : validateAccess verify cache encoded audience now db = .ok principal) :
    Valid claims.value now db principal := by
  obtain ⟨claims',hclaims',h⟩ := validateAccess_ok.mp h
  obtain rfl : claims' = claims := Option.some.inj (hclaims'.symm.trans hclaims)
  by_cases haudience : audience = .tenant
  · rw [if_pos haudience] at h
    exact tenantAccess_valid h
  · rw [if_neg haudience] at h
    obtain ⟨state,hread,hstate,rfl⟩ := cachedAccess_some h
    exact state_valid hread hstate

/-- Whatever the cache answers, a validated token is backed by the database
and validates with the same principal when there is no cached state. -/
theorem access_validated {verify : String → Audience → Time → Option AccessTokenClaims}
    {cache : Option ValidationCache} {encoded : String} {audience : Audience} {now : Time}
    {db : SessionDatabase} {principal : ValidatedSession}
    (h : validateAccess verify cache encoded audience now db = .ok principal) :
    (∃ claims, verify encoded audience now = some claims ∧
      (audience = .tenant → claims.value.audience = .tenant) ∧
      Valid claims.value now db principal) ∧
    validateAccess verify none encoded audience now db = .ok principal ∧
    ∀ ttlSeconds, validateAccess verify (some (emptyCache ttlSeconds)) encoded audience now db =
      .ok principal := by
  obtain ⟨claims,hclaims,hthen⟩ := validateAccess_ok.mp h
  have hvalid := validateAccess_valid hclaims h
  by_cases haudience : audience = .tenant
  · rw [if_pos haudience] at hthen
    have hagain : ∀ other, validateAccess verify other encoded audience now db =
        .ok principal := by
      intro other
      refine validateAccess_ok.mpr ⟨claims,hclaims,?_⟩
      rw [if_pos haudience]
      exact hthen
    exact ⟨⟨claims,hclaims,fun _ => tenantAccess_audience hthen,hvalid⟩,hagain none,
      fun ttlSeconds => hagain _⟩
  · rw [if_neg haudience] at hthen
    obtain ⟨state,hread,hstate,rfl⟩ := cachedAccess_some hthen
    have hagain : ∀ other, readCachedState other claims.value.sessionId = none →
        validateAccess verify other encoded audience now db = .ok (validated state) := by
      intro other hempty
      refine validateAccess_ok.mpr ⟨claims,hclaims,?_⟩
      rw [if_neg haudience]
      exact cachedAccess_empty hempty hread hstate
    exact ⟨⟨claims,hclaims,fun ht => absurd ht haudience,hvalid⟩,hagain none rfl,
      fun ttlSeconds => hagain _ (emptyCache_read ttlSeconds _)⟩

def sampleMembership : Membership where
  value := {
    id := ⟨0,0,2⟩
    tenantId := ⟨0,0,1⟩
    userId := ⟨0,0,3⟩
    departmentId := none
    memberType := .internal
    status := .active
    validFrom := 0
    validUntil := none
    authzVersion := 4
    version := 1}
  valid := by decide

def sampleDatabase : SessionDatabase where
  identity := {
    users := ⟨[{id := ⟨0,0,3⟩}],by decide⟩
    tenants := ⟨[{
      id := ⟨0,0,1⟩
      name := "Firm"
      normalizedName := "firm"
      tenantType := .lawFirm
      status := .active
      createdByUserId := ⟨0,0,3⟩}],by decide⟩
    departments := .empty
    memberships := .single ⟨sampleMembership.value⟩ (by decide)
    permissions := .empty
    tenantRoles := .empty
    rolePermissions := .empty
    assignments := .empty}
  sessions := .single {
    id := ⟨0,0,4⟩
    userId := ⟨0,0,3⟩
    tenantId := some ⟨0,0,1⟩
    membershipId := some ⟨0,0,2⟩
    currentFamilyId := ⟨0,0,5⟩
    authVersionAtIssue := 1
    authzVersionAtIssue := some 4
    lastSeenAt := 0
    expiresAt := refreshAbsoluteTtl
    updatedAt := 0} (by decide)
  tokens := .empty

def sampleClaims : AccessTokenClaims where
  value := {
    userId := ⟨0,0,3⟩
    sessionId := ⟨0,0,4⟩
    tokenId := ⟨0,0,6⟩
    audience := .tenant
    issuedAt := 0
    notBefore := 0
    expiresAt := accessTtl
    authVersion := 1
    tenantId := some ⟨0,0,1⟩
    membershipId := some ⟨0,0,2⟩
    authzVersion := some 4}
  valid := by decide

/-- A member's token validates while the cache is down. -/
theorem sample_validated :
    (∃ claims : AccessTokenClaims, some sampleClaims = some claims ∧
      (Audience.tenant = .tenant → claims.value.audience = .tenant) ∧
      Valid claims.value 0 sampleDatabase (claimed sampleClaims.value)) ∧
    validateAccess (fun _ _ _ => some sampleClaims) none "token" .tenant 0 sampleDatabase =
      .ok (claimed sampleClaims.value) ∧
    ∀ ttlSeconds, validateAccess (fun _ _ _ => some sampleClaims) (some (emptyCache ttlSeconds))
      "token" .tenant 0 sampleDatabase = .ok (claimed sampleClaims.value) :=
  access_validated (show validateAccess (fun _ _ _ => some sampleClaims)
    (some ⟨fun _ => .error (),60⟩) "token" .tenant 0 sampleDatabase =
      .ok (claimed sampleClaims.value) by decide)

end LawyerAgent.SessionValidation
