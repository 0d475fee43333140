import LawyerAgent.Authorization

/-!
# What an allowed decision rests on

An allowed decision names a tenant, a membership or a platform action, a held
permission and an open access path. The access paths only open further when
the scope of the context or the assignments of the resource grow, and no other
check reads them.
-/

set_option autoImplicit false

namespace LawyerAgent.PolicyDecisions
open Common IdentityTables
open Authorization

variable {p : Principal} {c c' : TenantContext} {action : Action} {r r' : ResourceAttributes}
  {now : Time}

/-- The principal acts in its own membership, which is active at `now`. -/
structure ActiveMember (p : Principal) (c : TenantContext) (now : Time) : Prop where
  tenant : p.tenantId = some c.tenantId
  membership : ∃ membershipId, p.membershipId = some membershipId ∧
    c.membershipId = some membershipId
  user : c.membershipUserId = some p.userId
  status : c.membershipStatus = some .active
  window : ∃ validFrom, c.validFrom = some validFrom ∧ validFrom ≤ now ∧
    ∀ validUntil ∈ c.validUntil, now < validUntil
  authz : ∃ version, 1 ≤ version ∧ c.authzVersion = some version ∧
    c.sessionAuthzVersion = some version

/-- A platform principal has no tenant and no membership, and acts on the platform only. -/
structure PlatformActor (p : Principal) (c : TenantContext) (action : Action) : Prop where
  action : action ∈ platformActions
  tenant : p.tenantId = none
  membership : p.membershipId = none
  context : c.membershipId = none ∧ c.membershipUserId = none ∧ c.departmentId = none ∧
    c.membershipStatus = none ∧ c.validFrom = none ∧ c.validUntil = none ∧
    c.authzVersion = none ∧ c.sessionAuthzVersion = none

structure Grounds (p : Principal) (c : TenantContext) (action : Action)
    (r : ResourceAttributes) (now : Time) : Prop where
  resource : r.tenantId = c.tenantId
  member : p.audience = .tenant → ActiveMember p c now
  platform : p.audience = .platform → PlatformActor p c action
  versions : 1 ≤ p.authVersion ∧ p.authVersion = p.sessionAuthVersion
  permission : action.value ∈ p.permissions
  state : r.state ∉ terminalResourceStates
  confidentiality : confidentialityRank r.confidentiality ≤
    confidentialityRank c.scope.maximumConfidentiality
  path : p.audience = .tenant → c.scope.allowTenantWide = false →
    ∃ path ∈ r.accessPaths, pathOpen p c r path = true

theorem positive_some {version : Option ℕ} (h : positive version = true) :
    ∃ n, 1 ≤ n ∧ version = some n := by
  cases version with
  | none => cases h
  | some n => exact ⟨n,by simpa [positive] using h,rfl⟩

theorem session_versions (h : sessionReason p c = none) :
    1 ≤ p.authVersion ∧ p.authVersion = p.sessionAuthVersion := by
  unfold sessionReason at h
  split at h
  · cases h
  rename_i hs
  simp only [Bool.or_eq_true,Bool.not_eq_true',decide_eq_true_eq,not_or,not_not,
    Bool.not_eq_false] at hs
  obtain ⟨⟨⟨-,hauth⟩,-⟩,hsame⟩ := hs
  exact ⟨Nat.pos_of_ne_zero hauth,hsame⟩

theorem session_authz (h : sessionReason p c = none) (ha : p.audience = .tenant) :
    ∃ version, 1 ≤ version ∧ c.authzVersion = some version ∧
      c.sessionAuthzVersion = some version := by
  unfold sessionReason at h
  split at h
  · cases h
  split at h
  · cases h
  rename_i hs
  simp only [ha,true_and,Bool.or_eq_true,Bool.not_eq_true',decide_eq_true_eq,not_or,not_not,
    Bool.not_eq_false] at hs
  obtain ⟨⟨hpositive,-⟩,hsame⟩ := hs
  obtain ⟨version,hone,hversion⟩ := positive_some hpositive
  exact ⟨version,hone,hversion,hsame ▸ hversion⟩

theorem tenantMatch_resource (h : tenantMatchReason p c action r = none) :
    r.tenantId = c.tenantId := by
  unfold tenantMatchReason at h
  by_cases hr : r.tenantId = c.tenantId
  · exact hr
  · rw [if_pos hr] at h
    cases h

theorem tenantMatch_tenant (h : tenantMatchReason p c action r = none)
    (ha : p.audience = .tenant) :
    p.tenantId = some c.tenantId ∧
    (∃ membershipId, p.membershipId = some membershipId ∧ c.membershipId = some membershipId) ∧
    c.membershipUserId = some p.userId := by
  have hr := tenantMatch_resource h
  unfold tenantMatchReason at h
  rw [if_neg (not_not.mpr hr),ha] at h
  simp only at h
  split at h
  · cases h
  rename_i hs
  simp only [not_or,not_not] at hs
  obtain ⟨-,htenant,hsome,hmembership,huser⟩ := hs
  refine ⟨htenant,?_,huser⟩
  cases hm : p.membershipId with
  | none => simp [hm] at hsome
  | some membershipId => exact ⟨membershipId,rfl,by rw [← hmembership,hm]⟩

theorem tenantMatch_platform (h : tenantMatchReason p c action r = none)
    (ha : p.audience = .platform) : PlatformActor p c action := by
  have hr := tenantMatch_resource h
  unfold tenantMatchReason at h
  rw [if_neg (not_not.mpr hr),ha] at h
  simp only at h
  split at h
  · cases h
  rename_i hs
  simp only [not_or,not_not,Bool.not_eq_true,Option.isSome_eq_false_iff,Option.isNone_iff_eq_none]
    at hs
  obtain ⟨haction,htenant,hmembership,hcontext⟩ := hs
  exact ⟨haction,htenant,hmembership,hcontext⟩

theorem membership_window (h : membershipReason p c now = none) (ha : p.audience = .tenant) :
    c.membershipStatus = some .active ∧ ∃ validFrom, c.validFrom = some validFrom ∧
      validFrom ≤ now ∧ ∀ validUntil ∈ c.validUntil, now < validUntil := by
  unfold membershipReason at h
  rw [if_neg (by simp [ha])] at h
  by_cases hs : c.membershipStatus = some .active
  · rw [if_neg (not_not.mpr hs)] at h
    refine ⟨hs,?_⟩
    cases hf : c.validFrom with
    | none =>
      rw [hf] at h
      cases h
    | some validFrom =>
      rw [hf] at h
      simp only at h
      split at h
      · cases h
      rename_i hstarted
      split at h
      · cases h
      rename_i hended
      refine ⟨validFrom,rfl,Int.not_lt.mp hstarted,?_⟩
      intro validUntil hu
      apply Int.not_le.mp
      intro hle
      apply hended
      rw [Option.mem_def.mp hu]
      simpa using hle
  · rw [if_pos hs] at h
    cases h

theorem resourceState_none (h : resourceStateReason r = none) :
    r.state ∉ terminalResourceStates := by
  intro hs
  rw [resourceStateReason,if_pos hs] at h
  cases h

theorem scopeReason_none : scopeReason p c r = none ↔
    c.scope.unrecognizedScopeCodes = [] ∧ r.unrecognizedFields = [] ∧
    validResourceAttributes r = true ∧
    confidentialityRank r.confidentiality ≤ confidentialityRank c.scope.maximumConfidentiality ∧
    (p.audience = .tenant → c.scope.allowTenantWide = false →
      ∃ path ∈ r.accessPaths, pathOpen p c r path = true) := by
  unfold scopeReason
  by_cases hcodes : c.scope.unrecognizedScopeCodes = []
  swap
  · simp [hcodes]
  by_cases hfields : r.unrecognizedFields = []
  swap
  · simp [hcodes,hfields]
  by_cases hvalid : validResourceAttributes r = true
  swap
  · simp [hcodes,hfields,hvalid]
  by_cases hrank : confidentialityRank c.scope.maximumConfidentiality <
      confidentialityRank r.confidentiality
  · simp [hcodes,hfields,hvalid,hrank]
  rw [if_neg (not_not.mpr hcodes),if_neg (not_not.mpr hfields),if_neg (by simp [hvalid]),
    if_neg hrank,and_iff_right hcodes,and_iff_right hfields,and_iff_right hvalid,
    and_iff_right (Nat.not_lt.mp hrank)]
  cases ha : p.audience with
  | platform => simp
  | tenant =>
    cases hwide : c.scope.allowTenantWide with
    | true => simp
    | false => simp

theorem otherwiseAllowed_grounds (h : OtherwiseAllowed p c action r now)
    (hp : permissionReason p action = none) : Grounds p c action r now where
  resource := tenantMatch_resource h.tenant
  member := fun ha =>
    have hmatch := tenantMatch_tenant h.tenant ha
    have hwindow := membership_window h.membership ha
    ⟨hmatch.1,hmatch.2.1,hmatch.2.2,hwindow.1,hwindow.2,session_authz h.session ha⟩
  platform := tenantMatch_platform h.tenant
  versions := session_versions h.session
  permission := (permissionReason_none.mp hp).2.2
  state := resourceState_none h.state
  confidentiality := (scopeReason_none.mp h.scope).2.2.2.1
  path := (scopeReason_none.mp h.scope).2.2.2.2

/-- `b` has every flag and department of `a`, and as high a confidentiality. -/
structure ScopeGrows (a b : AuthorizationScope) : Prop where
  departments : a.departmentIds ⊆ b.departmentIds
  tenantWide : a.allowTenantWide = true → b.allowTenantWide = true
  owned : a.allowOwned = true → b.allowOwned = true
  shared : a.allowShared = true → b.allowShared = true
  matterTeam : a.allowMatterTeam = true → b.allowMatterTeam = true
  byClass : a.allowClass = true → b.allowClass = true
  clientDelegation : a.allowClientDelegation = true → b.allowClientDelegation = true
  confidentiality : confidentialityRank a.maximumConfidentiality ≤
    confidentialityRank b.maximumConfidentiality
  codes : b.unrecognizedScopeCodes = a.unrecognizedScopeCodes

def ContextGrows (c c' : TenantContext) : Prop :=
  ScopeGrows c.scope c'.scope ∧ c' = {c with scope := c'.scope}

/-- The same resource, shared with or assigned to more memberships. -/
structure AssignmentsGrow (a b : ResourceAttributes) : Prop where
  shared : a.sharedWithMembershipIds ⊆ b.sharedWithMembershipIds
  matterTeam : a.matterTeamMembershipIds ⊆ b.matterTeamMembershipIds
  byClass : a.classMembershipIds ⊆ b.classMembershipIds
  clientDelegation : a.delegatedClientMembershipIds ⊆ b.delegatedClientMembershipIds
  same : b = {a with
    sharedWithMembershipIds := b.sharedWithMembershipIds
    matterTeamMembershipIds := b.matterTeamMembershipIds
    classMembershipIds := b.classMembershipIds
    delegatedClientMembershipIds := b.delegatedClientMembershipIds}

theorem any_grows {o : Option UUID7} {ids ids' : List UUID7} (hsub : ids ⊆ ids')
    (h : o.any (ids.contains ·) = true) : o.any (ids'.contains ·) = true := by
  cases o with
  | none => cases h
  | some id =>
    simp only [Option.any_some,List.contains_iff_mem] at h ⊢
    exact hsub h

theorem flagged_grows {a b : Bool} {o : Option UUID7} {ids ids' : List UUID7}
    (hab : a = true → b = true) (hsub : ids ⊆ ids')
    (h : (a && o.any (ids.contains ·)) = true) : (b && o.any (ids'.contains ·)) = true := by
  rw [Bool.and_eq_true] at h ⊢
  exact ⟨hab h.1,any_grows hsub h.2⟩

theorem pathOpen_grows (hc : ContextGrows c c') (hr : AssignmentsGrow r r')
    (path : ResourceAccessPath) (h : pathOpen p c r path = true) :
    pathOpen p c' r' path = true := by
  obtain ⟨hscope,hsame⟩ := hc
  have hmembership : c'.membershipId = c.membershipId := by rw [hsame]
  have hdepartment : r'.departmentId = r.departmentId := by rw [hr.same]
  have howner : r'.ownerUserId = r.ownerUserId := by rw [hr.same]
  cases path with
  | department =>
    simp only [pathOpen] at h ⊢
    rw [hdepartment]
    exact any_grows hscope.departments h
  | owner =>
    simp only [pathOpen,Bool.and_eq_true] at h ⊢
    rw [howner]
    exact ⟨hscope.owned h.1,h.2⟩
  | shared =>
    simp only [pathOpen] at h ⊢
    rw [hmembership]
    exact flagged_grows hscope.shared hr.shared h
  | matterTeam =>
    simp only [pathOpen] at h ⊢
    rw [hmembership]
    exact flagged_grows hscope.matterTeam hr.matterTeam h
  | classPath =>
    simp only [pathOpen] at h ⊢
    rw [hmembership]
    exact flagged_grows hscope.byClass hr.byClass h
  | clientDelegation =>
    simp only [pathOpen] at h ⊢
    rw [hmembership]
    exact flagged_grows hscope.clientDelegation hr.clientDelegation h

theorem scopeReason_grows (hc : ContextGrows c c') (hr : AssignmentsGrow r r')
    (h : scopeReason p c r = none) : scopeReason p c' r' = none := by
  obtain ⟨hcodes,hfields,hvalid,hrank,hpath⟩ := scopeReason_none.mp h
  have hscope := hc.1
  apply scopeReason_none.mpr
  refine ⟨hscope.codes.trans hcodes,?_,?_,?_,?_⟩
  · rw [hr.same]
    exact hfields
  · rw [hr.same]
    exact hvalid
  · have hsame : r'.confidentiality = r.confidentiality := by rw [hr.same]
    rw [hsame]
    exact hrank.trans hscope.confidentiality
  · intro ha hwide
    have hnarrow : c.scope.allowTenantWide = false := by
      by_contra hne
      rw [hscope.tenantWide (Bool.eq_true_of_not_eq_false hne)] at hwide
      cases hwide
    obtain ⟨path,hmem,hopen⟩ := hpath ha hnarrow
    have hpaths : r'.accessPaths = r.accessPaths := by rw [hr.same]
    exact ⟨path,hpaths ▸ hmem,pathOpen_grows hc hr path hopen⟩

theorem otherwiseAllowed_grows (hc : ContextGrows c c') (hr : AssignmentsGrow r r')
    (h : OtherwiseAllowed p c action r now) : OtherwiseAllowed p c' action r' now where
  identity := h.identity
  session := by
    rw [hc.2]
    exact h.session
  tenant := by
    rw [hc.2,hr.same]
    exact h.tenant
  status := by
    rw [hc.2]
    exact h.status
  membership := by
    rw [hc.2]
    exact h.membership
  scope := scopeReason_grows hc hr h.scope
  state := by
    rw [hr.same]
    exact h.state

/-- An allowed decision has its grounds and stays allowed as scope and assignments grow. -/
theorem allowed_on_grounds (h : (PolicyEngine.decide p c action r now).allowed = true) :
    Grounds p c action r now ∧ ∀ c' r', ContextGrows c c' → AssignmentsGrow r r' →
      (PolicyEngine.decide p c' action r' now).allowed = true := by
  obtain ⟨hother,hpermission⟩ := decide_allowed.mp h
  refine ⟨otherwiseAllowed_grounds hother hpermission,?_⟩
  intro c' r' hc hr
  exact decide_allowed.mpr ⟨otherwiseAllowed_grows hc hr hother,hpermission⟩

def sampleId (n : BitVec 62) : UUID7 := ⟨1,0,n⟩

def sampleMember : Principal where
  userId := sampleId 1
  sessionId := sampleId 2
  audience := .tenant
  tenantId := some (sampleId 3)
  membershipId := some (sampleId 4)
  userStatus := .active
  sessionValid := true
  authVersion := 1
  sessionAuthVersion := 1
  permissions := ["membership.read"]
  roleCodes := ["lawyer_or_legal"]

def sampleContext : TenantContext where
  tenantId := sampleId 3
  membershipId := some (sampleId 4)
  membershipUserId := some (sampleId 1)
  departmentId := none
  tenantStatus := .active
  membershipStatus := some .active
  validFrom := some 0
  validUntil := none
  authzVersion := some 1
  sessionAuthzVersion := some 1
  scope := {allowShared := true}

def sampleResource : ResourceAttributes where
  tenantId := sampleId 3
  state := .active
  accessPaths := [.shared]
  sharedWithMembershipIds := [sampleId 4]

theorem shared_with_member : Grounds sampleMember sampleContext .membershipRead sampleResource 1 ∧
    ∀ c' r', ContextGrows sampleContext c' → AssignmentsGrow sampleResource r' →
      (PolicyEngine.decide sampleMember c' .membershipRead r' 1).allowed = true :=
  allowed_on_grounds (by decide)

def sampleReviewer : Principal where
  userId := sampleId 1
  sessionId := sampleId 2
  audience := .platform
  tenantId := none
  membershipId := none
  userStatus := .active
  sessionValid := true
  authVersion := 1
  sessionAuthVersion := 1
  permissions := ["tenant_application.read"]
  roleCodes := ["super_admin"]

def applicationContext : TenantContext where
  tenantId := sampleId 3
  membershipId := none
  membershipUserId := none
  departmentId := none
  tenantStatus := .pendingVerification
  membershipStatus := none
  validFrom := none
  validUntil := none
  authzVersion := none
  sessionAuthzVersion := none
  scope := {}

/-- A platform reviewer is allowed without a tenant or a membership of its own. -/
theorem reviewer_outside_tenants :
    ¬∀ (p : Principal) (c : TenantContext) (action : Action) (r : ResourceAttributes)
      (now : Time), (PolicyEngine.decide p c action r now).allowed = true →
        p.tenantId = some c.tenantId ∧ c.membershipStatus = some .active := by
  intro h
  have hallowed : (PolicyEngine.decide sampleReviewer applicationContext .tenantApplicationRead
      sampleResource 1).allowed = true := by decide
  obtain ⟨htenant,-⟩ := h _ _ _ _ _ hallowed
  cases htenant

end LawyerAgent.PolicyDecisions
