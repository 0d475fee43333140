import LawyerAgent.TenantOwners

/-!
# Acceptance of invitations

Calls of `InvitationService.create` and `InvitationService.accept` interleave.
What a call does before it has the lock of the tenant is not part of a step: a
first check can only turn a creation away, and an acceptance brings the locator
that an earlier transaction has read, of which nothing is assumed.
-/

set_option autoImplicit false

namespace LawyerAgent.InvitationAcceptance
open Relational Common Tenancy IdentityTables
open Idempotency IdempotencyService TenantWorkflowTables
open MembershipRepository
open TenantApplications Invitations TenantOwners
open TenantAuthorization hiding membershipsOf
open SessionTables hiding sessionsOf tokensOf

def targetKindValue : InvitationTargetKind → String
  | .phone => "phone"
  | .email => "email"

/-- What `BlindIndexService` makes of a purpose and a value under one key. -/
abbrev BlindDigest : Type := ℕ → String → String → Digest

def inviteIndex (digest : BlindDigest) (kind : InvitationTargetKind) (subject : String) (v : ℕ) :
    VersionedBlindIndex :=
  ⟨v,digest v ("invite:"++targetKindValue kind) subject⟩

/-- `subject` is what the ciphertext decrypts and normalizes to, if it does. -/
structure AuthIdentity where
  userId : UUID7
  kind : InvitationTargetKind
  subject : Option String
  active : Bool
  verifiedAt : Option Time

def verifiedIdentities (userId : UUID7) (kind : InvitationTargetKind)
    (identities : List AuthIdentity) : List AuthIdentity :=
  identities.filter fun x => x.userId == userId && x.kind == kind && x.active && x.verifiedAt.isSome

/-- The indexes of the user's verified identities of a kind under all `versions` of the ring. -/
def candidatesOf (digest : BlindDigest) (versions : List ℕ) (userId : UUID7)
    (identities : List AuthIdentity) (kind : InvitationTargetKind) : List VersionedBlindIndex :=
  (verifiedIdentities userId kind identities).flatMap fun x =>
    x.subject.toList.flatMap fun subject => versions.map (inviteIndex digest x.kind subject)

/-- The user has a verified identity of the kind of the invitation whose subject
has the index of the invitation. -/
def Verified (digest : BlindDigest) (userId : UUID7) (identities : List AuthIdentity)
    (i : TenantInvitationModel) : Prop :=
  ∃ x ∈ identities, x.userId = userId ∧ x.kind = i.targetKind ∧ x.active = true ∧
    x.verifiedAt.isSome = true ∧ ∃ subject v, x.subject = some subject ∧
    i.targetBlindIndexKeyVersion = some v ∧
    i.targetBlindIndex = digest v ("invite:"++targetKindValue i.targetKind) subject

variable {i : TenantInvitationModel} {db db' : TenancyDatabase} {q : AcceptInvitationCall}
  {result : InvitationAcceptanceResult} {model : Option TenantMembershipModel}

theorem matchesTarget_verified {digest : BlindDigest} {versions : List ℕ} {userId : UUID7}
    {identities : List AuthIdentity}
    (h : matchesTarget i (candidatesOf digest versions userId identities i.targetKind) = true) :
    Verified digest userId identities i := by
  obtain ⟨candidate,hcandidate,hmatch⟩ := List.any_eq_true.mp h
  rw [Bool.and_eq_true,beq_iff_eq,beq_iff_eq] at hmatch
  obtain ⟨x,hx,hin⟩ := List.mem_flatMap.mp hcandidate
  obtain ⟨subject,hsubject,hin⟩ := List.mem_flatMap.mp hin
  obtain ⟨v,-,rfl⟩ := List.mem_map.mp hin
  obtain ⟨hmem,hverified⟩ := List.mem_filter.mp hx
  simp only [Bool.and_eq_true,beq_iff_eq] at hverified
  obtain ⟨⟨⟨huser,hkind⟩,hactive⟩,hat⟩ := hverified
  refine ⟨x,hmem,huser,hkind,hactive,hat,subject,v,Option.mem_toList.mp hsubject,hmatch.1,?_⟩
  rw [hmatch.2,← hkind]
  rfl

def createLocked (q : CreateInvitationCall) : TenancyTx InvitationResult := do
  require (q.delivery = true) (.runtimeError "invitation delivery capability is unavailable")
  require (q.clock.now < q.command.value.expiresAt)
    (.valueError "invitation expiry must be in the future")
  let actorMembershipId ← orFail (.authorizationDenied "membership_inactive")
    q.actor.context.membershipId
  let gate ← read fun db => tenantExists q.actor.context.tenantId db.identity
  require (gate = true) .resourceNotFound
  let locked ← authorizedInviter q.actor q.clock.locked q.clock.lockedInvite q.clock.lockedAssign
  let roles ← read fun db =>
    invitedRoleCodes q.actor.context.tenantId q.command.value.roleIds db.identity
  let roles ← orFail .resourceNotFound roles
  require (invitationRolesAllowed locked.roleCodes (roles.map Prod.snd) = true)
    .invitationRoleDenied
  let reservation ← within .idempotency recordsOf (reserve (inviteRequest q actorMembershipId))
  match reservation.replay with
  | some reference => replayInvitation q.actor.context.tenantId reference
  | none => do
    let index ← orFail
      (.runtimeError "active invitation blind-index version is unavailable") q.activeIndex
    let invitation := newInvitation q actorMembershipId index
    addInvitation invitation
    addInvitationRoles invitation q.command.value.roleIds
    let result ← ofExcept .valueError
      (postInit idempotencyResultChecks ⟨"invitation",invitation.id,none,none⟩)
    within .idempotency recordsOf (complete reservation result q.clock.now)
    pure (invitationResult invitation false)

theorem createInvitation_locked {q : CreateInvitationCall} {result : InvitationResult}
    (h : createInvitation q db = .ok (result,db')) :
    createLocked q db = .ok (result,db') := by
  simp only [createInvitation,bind_ok,require_ok] at h
  obtain ⟨_,_,⟨hdelivery,rfl⟩,_,_,⟨hexpiry,rfl⟩,_,_,hinitial,h⟩ := h
  rw [authorizedInviter_ok hinitial] at h
  simp only [createLocked,bind_ok,require_ok]
  exact ⟨(),_,⟨hdelivery,rfl⟩,(),_,⟨hexpiry,rfl⟩,h⟩

structure InvitationLocator where
  invitationId : UUID7
  tenantId : UUID7

def locate (tokenHash : Digest) (db : TenancyDatabase) : Option InvitationLocator :=
  (selectRow (hasToken tokenHash) db.invitations).map fun i => ⟨i.id,i.tenantId⟩

def gatedInvitation (q : AcceptInvitationCall) (locator : InvitationLocator) :
    TenancyTx TenantInvitationModel := do
  let tenant ← read fun db => selectRow (isTenant locator.tenantId) db.identity.tenants
  let tenant ← orFail .invitationUnavailable tenant
  require (tenant.status ∈ [.pendingVerification,.active]) .invitationUnavailable
  let invitation ← read fun db => selectRow (fun i => i.tenantId == locator.tenantId &&
    hasToken q.tokenHash i) db.invitations
  let invitation ← orFail .invitationUnavailable invitation
  require (invitation.id = locator.invitationId) .invitationUnavailable
  pure invitation

def acceptLocated (q : AcceptInvitationCall) (locator : InvitationLocator) :
    TenancyTx InvitationAcceptanceResult := do
  let invitation ← gatedInvitation q locator
  let active ← read fun db => lockActiveUser q.actorUserId db.identity
  let model ← read fun db => memberByUser invitation.tenantId q.actorUserId db.identity
  let membership ← checkedMember model
  let roles ← read (offeredRoles invitation)
  require (active = true) .invitationUnavailable
  let roles ← orFail .invitationUnavailable roles
  let reservation ← within .idempotency recordsOf (reserve (acceptRequest q))
  match reservation.replay with
  | some reference => replayAcceptance q invitation roles reference
  | none => acceptNew q invitation membership roles reservation

theorem acceptInvitation_located : acceptInvitation q db = .ok (result,db') ↔
      ∃ locator, locate q.tokenHash db = some locator ∧
        acceptLocated q locator db = .ok (result,db') := by
  simp only [acceptInvitation,lockedInvitation,acceptLocated,gatedInvitation,locate,bind_ok,
    read_ok,orFail_ok,Option.map_eq_some_iff]
  constructor
  · rintro ⟨i,u,⟨_,_,⟨rfl,rfl⟩,row,_,⟨hrow,rfl⟩,hgate⟩,h⟩
    exact ⟨⟨row.id,row.tenantId⟩,⟨row,hrow,rfl⟩,i,u,hgate,h⟩
  · rintro ⟨_,⟨row,hrow,rfl⟩,i,u,hgate,h⟩
    exact ⟨i,u,⟨_,_,⟨rfl,rfl⟩,row,_,⟨hrow,rfl⟩,hgate⟩,h⟩

/-- Nothing that invitations, memberships and roles consist of changes. -/
structure Unchanged (db db' : TenancyDatabase) : Prop where
  invitations : db'.invitations = db.invitations
  invitationRoles : db'.invitationRoles = db.invitationRoles
  identity : db'.identity = db.identity

inductive CreationEffect (q : CreateInvitationCall) (db : TenancyDatabase) :
    InvitationResult → TenancyDatabase → Prop
  | replayed (result : InvitationResult) (db' : TenancyDatabase) (replayed : result.replayed = true)
      (unchanged : Unchanged db db') : CreationEffect q db result db'
  | created (actorMembershipId : UUID7) (index : VersionedBlindIndex) (result : InvitationResult)
      (db' : TenancyDatabase) (fresh : result.replayed = false)
      (indexed : q.activeIndex = some index)
      (invitations : Inserted (newInvitation q actorMembershipId index) db.invitations
        db'.invitations)
      (invitationRoles : db'.invitationRoles.rows = q.command.value.roleIds.map
        (fun id => ⟨q.actor.context.tenantId,q.invitationId,id⟩)++db.invitationRoles.rows)
      (identity : db'.identity = db.identity) : CreationEffect q db result db'

theorem createLocked_effect {q : CreateInvitationCall} {result : InvitationResult}
    (h : createLocked q db = .ok (result,db')) :
    CreationEffect q db result db' := by
  simp only [createLocked,bind_ok,require_ok,read_ok,orFail_ok,within_ok] at h
  obtain ⟨_,_,⟨-,rfl⟩,_,_,⟨-,rfl⟩,actorMembershipId,_,⟨-,rfl⟩,_,_,⟨rfl,rfl⟩,_,_,⟨-,rfl⟩,_,_,
    hlocked,_,_,⟨rfl,rfl⟩,_,_,⟨-,rfl⟩,_,_,⟨-,rfl⟩,reservation,_,⟨records,-,rfl⟩,h⟩ := h
  rw [authorizedInviter_ok hlocked] at h
  cases hreplay : reservation.replay with
  | some reference =>
    rw [hreplay] at h
    simp only [replayInvitation,bind_ok,require_ok,read_ok,orFail_ok,pure_ok] at h
    obtain ⟨_,_,⟨-,rfl⟩,_,_,⟨rfl,rfl⟩,_,_,⟨-,rfl⟩,rfl,rfl⟩ := h
    exact .replayed _ _ rfl ⟨rfl,rfl,rfl⟩
  | none =>
    rw [hreplay] at h
    simp only [addInvitation,addInvitationRoles,bind_ok,require_ok,orFail_ok,zoom_ok,within_ok,
      insertRow_ok,insertRows_ok,ofExcept_ok,pure_ok] at h
    obtain ⟨index,_,⟨hindex,rfl⟩,_,_,⟨_,_,⟨-,rfl⟩,t,hinvitations,rfl⟩,_,_,⟨u,hroles,rfl⟩,_,_,
      ⟨-,rfl⟩,_,_,⟨_,-,rfl⟩,rfl,rfl⟩ := h
    exact .created actorMembershipId index _ _ rfl hindex hinvitations hroles rfl

def Offers (i : TenantInvitationModel) (db : TenancyDatabase) (roleId : UUID7) : Prop :=
  ∃ a ∈ db.invitationRoles, a.tenantId = i.tenantId ∧ a.invitationId = i.id ∧
    a.tenantRoleId = roleId

/-- The membership that an acceptance admits: a new one, or one that was
invited only. Every other membership is as it was. -/
structure MemberAdmitted (q : AcceptInvitationCall) (i : TenantInvitationModel)
    (memberType : MemberType) (admitted : Membership) (t t' : Table tenantMemberships) : Prop where
  tenant : admitted.value.tenantId = i.tenantId
  user : admitted.value.userId = q.actorUserId
  memberType : admitted.value.memberType = memberType
  status : admitted.value.status = .active
  row : ∃ m ∈ t', m.toMembershipFields = admitted.value
  kept : ∀ m ∈ t, m.status ≠ .invited → m ∈ t' ∧ m.id ≠ admitted.value.id

theorem activateMembership_admits {membership admitted : Membership}
    (htenant : membership.value.tenantId = i.tenantId)
    (huser : ∀ m ∈ db.identity.memberships, m.id = membership.value.id → m.userId = q.actorUserId ∧
      m.memberType = membership.value.memberType)
    (h : activateMembership membership q.now db = .ok (admitted,db')) :
    ∃ t, MemberAdmitted q i membership.value.memberType admitted db.identity.memberships t ∧
      db' = membershipsOf.set t db := by
  simp only [activateMembership,bind_ok,zoom_ok,require_ok,read_ok,orFail_ok,ofExcept_ok] at h
  obtain ⟨n,_,⟨t,hupdate,rfl⟩,_,_,⟨rfl,rfl⟩,_,_,⟨rfl,rfl⟩,model,_,⟨hmodel,rfl⟩,hmember,rfl⟩ := h
  obtain ⟨hmem,hcond⟩ := selectRow_some hmodel
  have hvalue : admitted.value = model.toMembershipFields := postInit_ok hmember
  simp only [isMembership,Bool.and_eq_true,beq_iff_eq] at hcond
  rcases updateRows_keyed hupdate membership.value.id (by
      intro r hr
      simp only [isInvited,isMembership,Bool.and_eq_true,beq_iff_eq] at hr
      exact hr.1.2) (fun _ => rfl) with ⟨hzero,-,-⟩ | ⟨-,r,hr,hreplaced⟩
  · cases hzero
  simp only [isInvited,isMembership,Bool.and_eq_true,beq_iff_eq] at hr
  have hmodel' : model = activatedMember q.now r := by
    apply eq_of_key hmem ((replaced_mem hreplaced).mpr (Or.inl rfl))
    exact hcond.2.trans hr.1.2.symm
  obtain ⟨hru,hrt⟩ := huser r hreplaced.mem hr.1.2
  rw [hmodel'] at hvalue
  refine ⟨t,⟨?_,?_,?_,?_,⟨model,hmem,?_⟩,?_⟩,rfl⟩
  · rw [hvalue]
    exact hr.1.1.trans htenant
  · rw [hvalue]
    exact hru
  · rw [hvalue]
    exact hrt
  · rw [hvalue]
    rfl
  · rw [hvalue,hmodel']
  · intro m hm hstatus
    have hkey : tenantMemberships.key m ≠ tenantMemberships.key r := by
      intro hk
      obtain rfl : m = r := eq_of_key hm hreplaced.mem hk
      exact hstatus hr.2
    refine ⟨(replaced_mem hreplaced).mpr (Or.inr ⟨hm,hkey⟩),?_⟩
    rw [hvalue]
    exact hkey

theorem admitMember_admits {memberType : MemberType} {membership : Option Membership}
    {admitted : Membership} {db₀ db db' : TenancyDatabase}
    (hmodel : memberByUser i.tenantId q.actorUserId db.identity = model)
    (hmembership : checkedMember model db₀ = .ok (membership,db₀))
    (h : admitMember q i memberType membership db = .ok (admitted,db')) :
    ∃ t, MemberAdmitted q i memberType admitted db.identity.memberships t ∧
      db' = membershipsOf.set t db := by
  cases model with
  | none =>
    obtain ⟨rfl,-⟩ := pure_ok.mp hmembership
    simp only [admitMember,addMembership,bind_ok,ofExcept_ok,zoom_ok,insertRow_ok,pure_ok] at h
    obtain ⟨fields,_,⟨hfields,rfl⟩,_,_,⟨t,hinserted,rfl⟩,rfl,rfl⟩ := h
    have hvalue : fields.value = acceptedFields q i memberType := postInit_ok hfields
    refine ⟨t,⟨?_,?_,?_,?_,⟨⟨fields.value⟩,(inserted_mem hinserted).mpr (Or.inl rfl),rfl⟩,?_⟩,rfl⟩
    · rw [hvalue]
      rfl
    · rw [hvalue]
      rfl
    · rw [hvalue]
      rfl
    · rw [hvalue]
      rfl
    · intro m hm _
      exact ⟨(inserted_mem hinserted).mpr (Or.inr hm),(inserted_fresh hinserted hm).1.symm⟩
  | some m =>
    obtain ⟨hm,hcond⟩ := selectRow_some hmodel
    simp only [Bool.and_eq_true,beq_iff_eq] at hcond
    simp only [checkedMember,bind_ok,ofExcept_ok,pure_ok] at hmembership
    obtain ⟨member,_,⟨hmember,rfl⟩,rfl,-⟩ := hmembership
    have hvalue : member.value = m.toMembershipFields := postInit_ok hmember
    rw [admitMember] at h
    by_cases hinvited : member.value.status = .invited ∧ member.value.memberType = memberType
    · rw [if_pos hinvited] at h
      obtain ⟨-,rfl⟩ := hinvited
      apply activateMembership_admits ?_ ?_ h
      · rw [hvalue]
        exact hcond.1
      · intro r hr hid
        rw [hvalue] at hid ⊢
        obtain rfl : r = m := eq_of_key hr hm hid
        exact ⟨hcond.2,rfl⟩
    · rw [if_neg hinvited] at h
      exact (fail_ok.mp h).elim

/-- What an acceptance that is no replay finds and leaves. -/
structure AcceptanceEffect (q : AcceptInvitationCall) (i : TenantInvitationModel)
    (roles : List (UUID7 × String)) (result : InvitationAcceptanceResult)
    (db db' : TenancyDatabase) : Prop where
  mem : i ∈ db.invitations
  token : i.tokenHash = q.tokenHash
  acceptable : acceptable q i = true
  offered : offeredRoles i db = some roles
  ids : result.roleIds = sortedIds (roles.map Prod.fst)
  implied : memberTypeForRoles (roles.map Prod.snd) = some result.membership.value.memberType
  invitation : result.invitationId = i.id
  fresh : result.replayed = false
  consumed : Replaced i (consumed q.now i) db.invitations db'.invitations
  member : MemberAdmitted q i result.membership.value.memberType result.membership
    db.identity.memberships db'.identity.memberships
  assignments : db'.identity.assignments.rows = result.roleIds.map
    (fun id => ⟨i.tenantId,result.membership.value.id,id,some i.invitedByMembershipId⟩)++
    db.identity.assignments.rows.filter
      (fun a => !assignedTo i.tenantId result.membership.value.id a)
  tenantRoles : db'.identity.tenantRoles = db.identity.tenantRoles
  invitationRoles : db'.invitationRoles = db.invitationRoles

theorem consume_ok {now : Time} {u : Unit} (hi : i ∈ db.invitations)
    (h : consume i now db = .ok (u,db')) :
    ∃ t, Replaced i (consumed now i) db.invitations t ∧ db' = invitationsOf.set t db := by
  simp only [consume,bind_ok,require_ok,zoom_ok] at h
  obtain ⟨_,_,⟨-,rfl⟩,n,_,⟨t,hupdate,rfl⟩,rfl,rfl⟩ := h
  rcases updateRows_keyed hupdate i.id (by
      intro j hj
      simp only [consumable,Bool.and_eq_true,beq_iff_eq] at hj
      exact hj.1.1.2) (fun _ => rfl) with ⟨hzero,-,-⟩ | ⟨-,j,hj,hreplaced⟩
  · cases hzero
  simp only [consumable,Bool.and_eq_true,beq_iff_eq] at hj
  obtain rfl : j = i := eq_of_key hreplaced.mem hi hj.1.1.2
  exact ⟨t,hreplaced,rfl⟩

theorem acceptNew_effect {membership : Option Membership} {roles : List (UUID7 × String)}
    {reservation : IdempotencyService.IdempotencyReservation} {db₀ db db' : TenancyDatabase}
    (hi : i ∈ db.invitations) (htoken : i.tokenHash = q.tokenHash)
    (hroles : offeredRoles i db = some roles)
    (hmodel : memberByUser i.tenantId q.actorUserId db.identity = model)
    (hmembership : checkedMember model db₀ = .ok (membership,db₀))
    (h : acceptNew q i membership roles reservation db = .ok (result,db')) :
    AcceptanceEffect q i roles result db db' := by
  simp only [acceptNew,bind_ok,require_ok,orFail_ok,ofExcept_ok,within_ok,pure_ok] at h
  obtain ⟨_,_,⟨hacceptable,rfl⟩,memberType,_,⟨htype,rfl⟩,admitted,db₁,hadm,_,db₂,hreplace,_,db₃,
    hconsume,_,_,⟨-,rfl⟩,_,_,⟨_,-,rfl⟩,rfl,rfl⟩ := h
  obtain ⟨members,hadmits,hframe₁⟩ := admitMember_admits hmodel hmembership hadm
  obtain ⟨hrows,hframe₂⟩ := replaceRoles_ok hreplace
  have hassigned : db₁.identity.assignments = db.identity.assignments := by
    rw [hframe₁]
    rfl
  have hinvitations : db₂.invitations = db.invitations := by
    rw [hframe₂,hframe₁]
    rfl
  obtain ⟨t,hreplaced,rfl⟩ := consume_ok (by rw [hinvitations]; exact hi) hconsume
  rw [hinvitations] at hreplaced
  have htype' : memberType = admitted.value.memberType := hadmits.memberType.symm
  refine ⟨hi,htoken,hacceptable,hroles,rfl,?_,rfl,rfl,hreplaced,?_,?_,?_,?_⟩
  · rw [htype,htype']
  · rw [htype'] at hadmits
    show MemberAdmitted q i _ admitted _ db₂.identity.memberships
    rw [hframe₂,hframe₁]
    exact hadmits
  · show (assignmentsOf.get db₂).rows = _
    rw [hrows]
    show _++db₁.identity.assignments.rows.filter _ = _
    rw [hassigned]
  · show db₂.identity.tenantRoles = _
    rw [hframe₂,hframe₁]
    rfl
  · show db₂.invitationRoles = _
    rw [hframe₂,hframe₁]
    rfl

theorem acceptLocated_effect {locator : InvitationLocator}
    (h : acceptLocated q locator db = .ok (result,db')) :
    (result.replayed = true ∧ Unchanged db db') ∨
    ∃ i roles, AcceptanceEffect q i roles result db db' := by
  simp only [acceptLocated,gatedInvitation,bind_ok,read_ok,require_ok,orFail_ok,within_ok,
    pure_ok] at h
  obtain ⟨_,_,⟨_,_,⟨rfl,rfl⟩,_,_,⟨-,rfl⟩,_,_,⟨-,rfl⟩,_,_,⟨rfl,rfl⟩,i,_,⟨hinvitation,rfl⟩,_,_,
    ⟨-,rfl⟩,rfl,rfl⟩,_,_,⟨rfl,rfl⟩,_,_,⟨rfl,rfl⟩,membership,_,hmember,_,_,⟨rfl,rfl⟩,_,_,⟨-,rfl⟩,
    roles,_,⟨hroles,rfl⟩,reservation,_,⟨records,-,rfl⟩,h⟩ := h
  obtain rfl := checkedMember_ok hmember
  obtain ⟨hi,hcond⟩ := selectRow_some hinvitation
  simp only [hasToken,Bool.and_eq_true,beq_iff_eq] at hcond
  cases hreplay : reservation.replay with
  | some reference =>
    rw [hreplay] at h
    simp only [replayAcceptance,bind_ok,require_ok,read_ok,orFail_ok,pure_ok] at h
    obtain ⟨_,_,⟨-,rfl⟩,_,_,⟨rfl,rfl⟩,_,_,hchecked,_,_,⟨-,rfl⟩,_,_,⟨-,rfl⟩,rfl,rfl⟩ := h
    rw [checkedMember_ok hchecked]
    exact Or.inl ⟨rfl,rfl,rfl,rfl⟩
  | none =>
    rw [hreplay] at h
    have heffect := acceptNew_effect (show i ∈ (recordsOf.set records _).invitations from hi)
      hcond.2 hroles rfl hmember h
    exact Or.inr ⟨i,roles,{heffect with}⟩

end LawyerAgent.InvitationAcceptance
