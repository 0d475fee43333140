import LawyerAgent.Invitations

/-!
# The owners of a tenant

A new tenant has an active owner. Mutations of members refuse to remove the
last one; applications and invitations leave active members alone.
-/

set_option autoImplicit false

namespace LawyerAgent.TenantOwners
open Relational Common Tenancy IdentityTables
open TenantWorkflowTables MembershipRepository
open MembershipMutation TenantApplications Invitations
open RoleTemplates RolloutTables IdempotencyService
open TenantAuthorization hiding membershipsOf
open SessionTables hiding sessionsOf tokensOf

/-- Some active membership of the tenant holds its active owner role. -/
def Owned (tenantId : UUID7) (d : Identity) : Prop :=
  ∃ m ∈ d.memberships, ∃ a ∈ d.assignments, ∃ r ∈ d.tenantRoles,
    isActiveOwner tenantId (m,a,r) = true

/-- Active memberships, what is assigned to them, and roles are still there. -/
structure Undisturbed (d d' : Identity) : Prop where
  memberships : ∀ m ∈ d.memberships, m.status = .active → m ∈ d'.memberships
  assignments : ∀ m ∈ d.memberships, m.status = .active → ∀ a ∈ d.assignments,
    a.membershipId = m.id → a ∈ d'.assignments
  roles : ∀ r ∈ d.tenantRoles, r ∈ d'.tenantRoles

theorem undisturbed_refl (d : Identity) : Undisturbed d d :=
  ⟨fun _ h _ => h,fun _ _ _ _ h _ => h,fun _ h => h⟩

variable {tenantId : UUID7} {db db' : TenancyDatabase} {membership : Option Membership}
  {i : TenantInvitationModel} {q : AcceptInvitationCall} {result : InvitationAcceptanceResult}
  {a : MembershipRoleAssignmentModel} {c : MemberMutation} {committed : CommittedMutation}

theorem owned_undisturbed {d d' : Identity} (h : Owned tenantId d) (hd : Undisturbed d d') :
    Owned tenantId d' := by
  obtain ⟨m,hm,a,ha,r,hr,howner⟩ := h
  obtain ⟨-,hassigned,-,-,-,hactive,-,-⟩ := isActiveOwner_iff.mp howner
  exact ⟨m,hd.memberships m hm hactive,a,hd.assignments m hm hactive a ha hassigned,r,
    hd.roles r hr,howner⟩

theorem application_owned {q : CreateApplicationCall} {d d' : Identity}
    (h : TenantApplied q d d') : Owned q.tenantId d' := by
  obtain ⟨r,hr,htenant,hstatus,hcode,hassigned⟩ := h.owner
  refine ⟨⟨ownerFields q⟩,(inserted_mem h.memberships).mpr (Or.inl rfl),_,
    (inserted_mem hassigned).mpr (Or.inl rfl),r,hr,?_⟩
  exact isActiveOwner_iff.mpr ⟨rfl,rfl,htenant,rfl,rfl,rfl,hstatus,hcode⟩

theorem application_undisturbed {q : CreateApplicationCall} {result : TenantApplicationResult}
    {d d' : Identity} (h : ApplicationEffect q d result d') : Undisturbed d d' := by
  cases h with
  | replayed _ => exact undisturbed_refl d
  | applied _ _ h =>
    obtain ⟨r,-,-,-,-,hassigned⟩ := h.owner
    obtain ⟨added,hroles⟩ := h.roles
    refine ⟨fun m hm _ => (inserted_mem h.memberships).mpr (Or.inr hm),
      fun _ _ _ a ha _ => (inserted_mem hassigned).mpr (Or.inr ha),fun r hr => ?_⟩
    rw [mem_rows,hroles]
    exact List.mem_append_right _ hr

theorem authorizedInviter_ok {actor : TenantActor} {snapshotAt inviteAt assignAt : Time}
    {snapshot : TenantAuthorizationSnapshot}
    (h : authorizedInviter actor snapshotAt inviteAt assignAt db = .ok (snapshot,db')) :
    db' = db := by
  simp only [authorizedInviter,requireTenantSnapshot,authorize,bind_ok,require_ok,allow_ok,
    pure_ok] at h
  obtain ⟨_,_,⟨_,_,hloaded,_,_,⟨-,rfl⟩,rfl,rfl⟩,_,_,⟨-,rfl⟩,_,_,⟨-,rfl⟩,rfl,rfl⟩ := h
  exact (loadedSnapshot_ok hloaded).1

theorem createInvitation_identity {q : CreateInvitationCall} {result : InvitationResult}
    (h : createInvitation q db = .ok (result,db')) :
    db'.identity = db.identity := by
  simp only [createInvitation,bind_ok,require_ok,read_ok,orFail_ok,within_ok] at h
  obtain ⟨_,_,⟨-,rfl⟩,_,_,⟨-,rfl⟩,_,_,hinitial,_,_,⟨-,rfl⟩,_,_,⟨rfl,rfl⟩,_,_,⟨-,rfl⟩,_,_,
    hlocked,_,_,⟨rfl,rfl⟩,_,_,⟨-,rfl⟩,_,_,⟨-,rfl⟩,reservation,_,⟨records,-,rfl⟩,h⟩ := h
  rw [authorizedInviter_ok hlocked,authorizedInviter_ok hinitial] at h
  cases hreplay : reservation.replay with
  | some reference =>
    rw [hreplay] at h
    simp only [replayInvitation,bind_ok,require_ok,read_ok,orFail_ok,pure_ok] at h
    obtain ⟨_,_,⟨-,rfl⟩,_,_,⟨rfl,rfl⟩,_,_,⟨-,rfl⟩,-,rfl⟩ := h
    rfl
  | none =>
    rw [hreplay] at h
    simp only [addInvitation,addInvitationRoles,bind_ok,require_ok,orFail_ok,zoom_ok,within_ok,
      insertRow_ok,insertRows_ok,ofExcept_ok,pure_ok] at h
    obtain ⟨_,_,⟨-,rfl⟩,_,_,⟨_,_,⟨-,rfl⟩,_,-,rfl⟩,_,_,⟨_,-,rfl⟩,_,_,⟨-,rfl⟩,_,_,⟨_,-,rfl⟩,-,
      rfl⟩ := h
    rfl

theorem checkedMember_ok {model : Option TenantMembershipModel}
    (h : checkedMember model db = .ok (membership,db')) :
    db' = db := by
  cases model with
  | none => exact (pure_ok.mp h).2.symm
  | some m =>
    simp only [checkedMember,bind_ok,ofExcept_ok,pure_ok] at h
    obtain ⟨_,_,⟨-,rfl⟩,-,rfl⟩ := h
    rfl

theorem lockedInvitation_ok (h : lockedInvitation q db = .ok (i,db')) : db' = db := by
  simp only [lockedInvitation,bind_ok,read_ok,orFail_ok,require_ok,pure_ok] at h
  obtain ⟨_,_,⟨rfl,rfl⟩,_,_,⟨-,rfl⟩,_,_,⟨rfl,rfl⟩,_,_,⟨-,rfl⟩,_,_,⟨-,rfl⟩,_,_,⟨rfl,rfl⟩,_,_,
    ⟨-,rfl⟩,_,_,⟨-,rfl⟩,-,rfl⟩ := h
  rfl

/-- The admitted membership is new or was only invited. -/
structure Admitted (admitted : Membership) (db db' : TenancyDatabase) : Prop where
  active : ∀ m ∈ db.identity.memberships, m.status = .active →
    m ∈ db'.identity.memberships ∧ m.id ≠ admitted.value.id
  frame : db' = membershipsOf.set db'.identity.memberships db

theorem activateMembership_ok {membership admitted : Membership} {now : Time}
    (h : activateMembership membership now db = .ok (admitted,db')) :
    Admitted admitted db db' := by
  simp only [activateMembership,bind_ok,zoom_ok,require_ok,read_ok,orFail_ok,ofExcept_ok] at h
  obtain ⟨n,_,⟨t,hupdate,rfl⟩,_,_,⟨rfl,rfl⟩,_,_,⟨rfl,rfl⟩,model,_,⟨hmodel,rfl⟩,hmember,rfl⟩ := h
  obtain ⟨-,hcond⟩ := selectRow_some hmodel
  have hvalue := postInit_ok hmember
  simp only [isMembership,Bool.and_eq_true,beq_iff_eq] at hcond
  rcases updateRows_keyed hupdate membership.value.id (by
      intro r hr
      simp only [isInvited,isMembership,Bool.and_eq_true,beq_iff_eq] at hr
      exact hr.1.2) (fun _ => rfl) with ⟨hzero,-,-⟩ | ⟨-,r,hr,hreplaced⟩
  · cases hzero
  simp only [isInvited,isMembership,Bool.and_eq_true,beq_iff_eq] at hr
  refine ⟨fun m hm hactive => ?_,rfl⟩
  have hkey : tenantMemberships.key m ≠ tenantMemberships.key r := by
    intro hk
    obtain rfl : m = r := eq_of_key hm hreplaced.mem hk
    rw [hactive] at hr
    cases hr.2
  refine ⟨(replaced_mem hreplaced).mpr (Or.inr ⟨hm,hkey⟩),fun hid => hkey ?_⟩
  rw [hvalue] at hid
  exact hid.trans (hcond.2.trans hr.1.2.symm)

theorem admitMember_ok {memberType : MemberType} {admitted : Membership}
    (h : admitMember q i memberType membership db = .ok (admitted,db')) :
    Admitted admitted db db' := by
  cases membership with
  | none =>
    simp only [admitMember,addMembership,bind_ok,ofExcept_ok,zoom_ok,insertRow_ok,pure_ok] at h
    obtain ⟨_,_,⟨-,rfl⟩,_,_,⟨t,hinserted,rfl⟩,rfl,rfl⟩ := h
    exact ⟨fun m hm _ => ⟨(inserted_mem hinserted).mpr (Or.inr hm),
      (inserted_fresh hinserted hm).1.symm⟩,rfl⟩
  | some m =>
    rw [admitMember] at h
    by_cases hinvited : m.value.status = .invited ∧ m.value.memberType = memberType
    · rw [if_pos hinvited] at h
      exact activateMembership_ok h
    · rw [if_neg hinvited] at h
      exact (fail_ok.mp h).elim

theorem acceptNew_undisturbed {roles : List (UUID7 × String)}
    {reservation : IdempotencyService.IdempotencyReservation}
    (h : acceptNew q i membership roles reservation db = .ok (result,db')) :
    Undisturbed db.identity db'.identity := by
  simp only [acceptNew,consume,bind_ok,require_ok,orFail_ok,zoom_ok,ofExcept_ok,within_ok,
    pure_ok] at h
  obtain ⟨_,_,⟨-,rfl⟩,_,_,⟨-,rfl⟩,admitted,db₁,hadm,_,db₂,hreplace,_,_,⟨_,_,⟨-,rfl⟩,_,_,
    ⟨_,-,rfl⟩,-,rfl⟩,_,_,⟨-,rfl⟩,_,_,⟨_,-,rfl⟩,-,rfl⟩ := h
  obtain ⟨hactive,hframe₁⟩ := admitMember_ok hadm
  obtain ⟨hrows,hframe₂⟩ := replaceRoles_ok hreplace
  have hmembers : db₂.identity.memberships = db₁.identity.memberships := by
    rw [hframe₂]
    rfl
  have hassigned : db₁.identity.assignments = db.identity.assignments := by
    rw [hframe₁]
    rfl
  have hroles : db₂.identity.tenantRoles = db.identity.tenantRoles := by
    rw [hframe₂,hframe₁]
    rfl
  refine ⟨fun m hm hm' => ?_,fun m hm hm' a ha hid => ?_,fun r hr => ?_⟩
  · change m ∈ db₂.identity.memberships
    rw [hmembers]
    exact (hactive m hm hm').1
  · change a ∈ (assignmentsOf.get db₂).rows
    rw [hrows]
    refine List.mem_append_right _ (List.mem_filter.mpr ⟨?_,?_⟩)
    · change a ∈ db₁.identity.assignments
      rw [hassigned]
      exact ha
    · have hne := (hactive m hm hm').2
      rw [← hid] at hne
      simp [assignedTo,hne]
  · change r ∈ db₂.identity.tenantRoles
    rw [hroles]
    exact hr

theorem acceptInvitation_undisturbed (h : acceptInvitation q db = .ok (result,db')) :
    Undisturbed db.identity db'.identity := by
  simp only [acceptInvitation,bind_ok,read_ok,require_ok,orFail_ok,within_ok] at h
  obtain ⟨invitation,db₁,hlocked,_,_,⟨rfl,rfl⟩,_,_,⟨rfl,rfl⟩,membership,db₂,hmember,_,_,
    ⟨rfl,rfl⟩,_,_,⟨-,rfl⟩,roles,_,⟨-,rfl⟩,reservation,_,⟨records,-,rfl⟩,h⟩ := h
  rw [checkedMember_ok hmember,lockedInvitation_ok hlocked] at h
  cases hreplay : reservation.replay with
  | some reference =>
    rw [hreplay] at h
    simp only [replayAcceptance,bind_ok,require_ok,read_ok,orFail_ok,pure_ok] at h
    obtain ⟨_,_,⟨-,rfl⟩,_,_,⟨rfl,rfl⟩,_,_,hchecked,_,_,⟨-,rfl⟩,_,_,⟨-,rfl⟩,-,rfl⟩ := h
    rw [checkedMember_ok hchecked]
    exact undisturbed_refl _
  | none =>
    rw [hreplay] at h
    have hnew := acceptNew_undisturbed h
    exact hnew

/-- The owners of `d` that the change does not touch are owners afterwards. -/
theorem other_kept {q : MutationCall} {locked : AuthorizedTarget} {p : MutationPlan}
    (h : MemberChanged q c committed locked p db db') {m : TenantMembershipModel}
    {r : TenantRoleModel} (hm : m ∈ db.identity.memberships) (ha : a ∈ db.identity.assignments)
    (hr : r ∈ db.identity.tenantRoles) (howner : isActiveOwner tenantId (m,a,r) = true)
    (hne : m.id ≠ c.membershipId) :
    Owned tenantId db'.identity := by
  obtain ⟨t,-,htid,-,hreplaced⟩ := h.row
  obtain ⟨-,hassigned,-,-,-,-,-,-⟩ := isActiveOwner_iff.mp howner
  refine ⟨m,(replaced_mem hreplaced).mpr (Or.inr ⟨hm,fun hk => hne (hk.trans htid)⟩),a,?_,r,
    h.roles ▸ hr,howner⟩
  rw [mem_rows,h.assignments]
  by_cases hsame : p.desiredRoles = p.currentRoles
  · rw [if_pos hsame]
    exact ha
  · rw [if_neg hsame]
    refine List.mem_append_right _ (List.mem_filter.mpr ⟨ha,?_⟩)
    rw [← hassigned] at hne
    simp [assignedTo,hne]

theorem code_read {tenantId membershipId : UUID7} {d : Identity} {codes : List (UUID7 × String)}
    (hcodes : roleCodesForIds tenantId (roleIds tenantId membershipId d) d = some codes)
    {r : TenantRoleModel} (ha : a ∈ d.assignments) (hr : r ∈ d.tenantRoles)
    (hat : a.tenantId = tenantId) (ham : a.membershipId = membershipId)
    (hrt : r.tenantId = tenantId) (hid : r.id = a.tenantRoleId) (hs : r.status = .active) :
    r.code ∈ codes.map Prod.snd := by
  refine List.mem_map.mpr ⟨(r.id,r.code),?_,rfl⟩
  refine (mem_codesForIds hcodes).mpr ⟨r,hr,hrt,?_,hs,rfl⟩
  exact mem_roleIds.mpr ⟨a,ha,hat,ham,hid.symm⟩

theorem target_owned {q : MutationCall} {locked : AuthorizedTarget} {p : MutationPlan}
    (h : MemberChanged q c committed locked p db db') {codes : List (UUID7 × String)}
    (hcodes : roleCodesForIds q.actor.context.tenantId p.desiredRoles db.identity = some codes)
    (hactive : p.desiredStatus = .active) (howner : "tenant_owner" ∈ codes.map Prod.snd) :
    Owned q.actor.context.tenantId db'.identity := by
  obtain ⟨t,htenant,hid,-,hreplaced⟩ := h.row
  obtain ⟨pair,hpair,hcode⟩ := List.mem_map.mp howner
  obtain ⟨r,hr,hrt,hrid,hrs,rfl⟩ := (mem_codesForIds hcodes).mp hpair
  have hassigned : ∃ a ∈ db'.identity.assignments, a.tenantId = q.actor.context.tenantId ∧
      a.membershipId = c.membershipId ∧ a.tenantRoleId = r.id := by
    by_cases hsame : p.desiredRoles = p.currentRoles
    · have hkept : db'.identity.assignments = db.identity.assignments := by
        refine Table.ext ?_
        rw [h.assignments,if_pos hsame]
      rw [hsame,h.plan.plan] at hrid
      rw [hkept]
      exact mem_roleIds.mp hrid
    · refine ⟨⟨q.actor.context.tenantId,c.membershipId,r.id,
        some locked.snapshot.actorMembership.value.id⟩,?_,rfl,rfl,rfl⟩
      rw [mem_rows,h.assignments,if_neg hsame]
      exact List.mem_append_left _ (List.mem_map.mpr ⟨r.id,hrid,rfl⟩)
  obtain ⟨a,ha,hat,ham,har⟩ := hassigned
  refine ⟨_,(replaced_mem hreplaced).mpr (Or.inl rfl),a,ha,r,h.roles ▸ hr,?_⟩
  exact isActiveOwner_iff.mpr ⟨hat.trans htenant.symm,ham.trans hid.symm,hrt.trans hat.symm,
    har.symm,htenant,hactive,hrs,hcode⟩

theorem mutation_owned {q : MutationCall} (h : MutationEffect q c db committed db')
    (howned : Owned tenantId db.identity) :
    Owned tenantId db'.identity := by
  cases h with
  | kept records _ => exact howned
  | changed locked p _ h =>
    obtain ⟨m,hm,a,ha,r,hr,howner⟩ := howned
    by_cases hne : m.id = c.membershipId
    · obtain ⟨t,htenant,htid,hvalue,hreplaced⟩ := h.row
      obtain rfl : m = t := eq_of_key hm hreplaced.mem (hne.trans htid.symm)
      obtain ⟨hat,ham,hrt,hrid,hmt,hactive,hrs,hcode⟩ := isActiveOwner_iff.mp howner
      obtain ⟨current,requested,hcurrent,hrequested,-,hguard⟩ := h.plan.validated
      obtain rfl : tenantId = q.actor.context.tenantId := hmt.symm.trans htenant
      by_cases hremains : p.desiredStatus = .active ∧ "tenant_owner" ∈ requested.map Prod.snd
      · exact target_owned h hrequested hremains.1 hremains.2
      · have hread : "tenant_owner" ∈ current.map Prod.snd := by
          rw [← hcode]
          rw [h.plan.plan] at hcurrent
          exact code_read hcurrent ha hr (hat.trans hmt) (ham.trans hne)
            ((hrt.trans hat).trans hmt) hrid hrs
        have hremoves : removesActiveOwner
            (mutationFields c locked.snapshot p current requested) = true := by
          have hstatus : p.current.value.status = .active := by
            rw [hvalue]
            exact hactive
          simp only [removesActiveOwner,mutationFields,ownerBefore,ownerAfter,hstatus,
            List.contains_iff_mem.mpr hread,beq_self_eq_true,Bool.true_and,Bool.not_eq_true',
            Bool.and_eq_false_iff,beq_eq_false_iff_ne]
          rcases Classical.not_and_iff_not_or_not.mp hremains with hs | ho
          · exact Or.inl hs
          · exact Or.inr (by simpa using ho)
        obtain ⟨n,hn,b,hb,s,hs,hother,hnid⟩ := other_owner (hguard hremoves)
        exact other_kept h hn hb hs hother hnid
    · exact other_kept h hm ha hr howner hne

/-- `elsewhere` is whatever other calls do to all other tables. -/
inductive TenantOp where
  | createApplication (q : CreateApplicationCall)
  | updateMember (q : MutationCall) (command : UpdateMemberCommand)
  | revokeMember (q : MutationCall) (command : RevokeMemberCommand)
  | createInvitation (q : CreateInvitationCall)
  | acceptInvitation (q : AcceptInvitationCall)
  | elsewhere (others : TenancyDatabase)

/-- The database `others` with the memberships, roles and assignments of `db`. -/
def keptMembers (others db : TenancyDatabase) : TenancyDatabase :=
  {others with
    rollout := {others.rollout with
      identity := {others.identity with
        memberships := db.identity.memberships
        tenantRoles := db.identity.tenantRoles
        assignments := db.identity.assignments}}}

def tenantStep : TenantOp → TenancyDatabase → TenancyDatabase
  | .createApplication q => commit (createApplication q)
  | .updateMember q command => commit (updateMember q command)
  | .revokeMember q command => commit (revokeMember q command)
  | .createInvitation q => commit (createInvitation q)
  | .acceptInvitation q => commit (acceptInvitation q)
  | .elsewhere others => keptMembers others

theorem step_owned (op : TenantOp) (db : TenancyDatabase) (h : Owned tenantId db.identity) :
    Owned tenantId (tenantStep op db).identity := by
  let P : TenancyDatabase → Prop := fun s => Owned tenantId s.identity
  cases op with
  | createApplication q =>
    refine commit_of (P := P) h fun result t ht => ?_
    exact owned_undisturbed h (application_undisturbed (createApplication_effect ht))
  | updateMember q command =>
    exact commit_of (P := P) h fun _ t ht => mutation_owned (mutateMember_effect ht) h
  | revokeMember q command =>
    exact commit_of (P := P) h fun _ t ht => mutation_owned (mutateMember_effect ht) h
  | createInvitation q =>
    refine commit_of (P := P) h fun _ t ht => ?_
    change Owned tenantId t.identity
    rw [createInvitation_identity ht]
    exact h
  | acceptInvitation q =>
    exact commit_of (P := P) h fun _ t ht => owned_undisturbed h (acceptInvitation_undisturbed ht)
  | elsewhere others => exact h

/-- A tenant that an application has created never loses its last owner. -/
theorem owner_remains {q : CreateApplicationCall} {result : TenantApplicationResult}
    {db : TenancyDatabase} (ops : List TenantOp)
    (h : outcome (createApplication q) db = .ok result) (hnew : result.replayed = false) :
    Owned result.tenant.id
      (run tenantStep ops (commit (createApplication q) db)).identity := by
  have heff := createApplication_effect (outcome_ok h)
  refine run_invariant (fun op s hs => step_owned op s hs) ops _ ?_
  generalize (commit (createApplication q) db).identity = d at heff ⊢
  cases heff with
  | replayed hreplayed => simp [hreplayed] at hnew
  | applied _ hresult happlied =>
    rw [hresult]
    exact application_owned happlied

def numbered (kind : BitVec 12) (codes : List String) (code : String) : UUID7 :=
  ⟨0,kind,BitVec.ofNat 62 (codes.idxOf code)⟩

def seedCodes : List String := tenantRoleTemplates.map RoleSeed.code

def catalogCodes : List String := (tenantRoleTemplates.flatMap RoleSeed.permissionCodes).dedup

/-- The catalog and the role templates as they are seeded. -/
def seededCatalog : Table permissionCatalog :=
  ⟨catalogCodes.map fun code => ⟨numbered 1 catalogCodes code,code,.active⟩,by decide⟩

def seededTemplates : Table roleTemplates :=
  ⟨tenantRoleTemplates.map fun seed =>
    ⟨numbered 2 seedCodes seed.code,seed.code,seed.name,seed.description,.active⟩,
    by decide⟩

def seededPermissions : Table roleTemplatePermissions :=
  ⟨tenantRoleTemplates.flatMap fun seed => seed.permissionCodes.map fun code =>
    ⟨numbered 2 seedCodes seed.code,numbered 1 catalogCodes code⟩,by decide +kernel⟩

def sampleUser : UUID7 := ⟨0,4,0⟩

def seeded : TenancyDatabase where
  rollout := {
    identity := {
      users := .single ⟨sampleUser,.active,1⟩ rfl
      tenants := .empty
      departments := .empty
      memberships := .empty
      permissions := seededCatalog
      tenantRoles := .empty
      rolePermissions := .empty
      assignments := .empty}
    templates := seededTemplates
    templatePermissions := seededPermissions
    rollouts := .empty
    tenantStates := .empty}
  sessions := .empty
  tokens := .empty
  records := .empty
  cacheOutbox := .empty
  invitations := .empty
  invitationRoles := .empty

def sampleService : Checked idempotencyServiceChecks := ⟨{},IdempotencyService.defaults_ok⟩

def sampleApplication : CreateApplicationCall where
  service := sampleService
  actorUserId := sampleUser
  name := ⟨"Firm","firm"⟩
  tenantType := .lawFirm
  prepared := ⟨1,1⟩
  recordId := ⟨0,5,0⟩
  tenantId := ⟨0,6,0⟩
  membershipId := ⟨0,7,0⟩
  newRoleId := numbered 8 seedCodes
  now := 0
  currentTimestamp := 0

theorem sampleApplication_owned : Owned ⟨0,6,0⟩
    (run tenantStep [.createApplication sampleApplication,.elsewhere seeded]
      (commit (createApplication sampleApplication) seeded)).identity := by
  have hcall : ((outcome (createApplication sampleApplication) seeded).toOption.map fun r =>
      (r.tenant.id,r.replayed)) = some (⟨0,6,0⟩,false) := by decide +kernel
  cases hresult : outcome (createApplication sampleApplication) seeded with
  | error failure =>
    rw [hresult] at hcall
    cases hcall
  | ok result =>
    rw [hresult] at hcall
    obtain ⟨hid,hnew⟩ := Prod.mk.inj (Option.some.inj hcall)
    rw [← hid]
    exact owner_remains _ hresult hnew

end LawyerAgent.TenantOwners

namespace LawyerAgent.MembershipRules
open Relational Common Tenancy IdentityTables
open MembershipRepository MembershipMutation
open TenantWorkflowTables

/-- Statuses no mutation starts from. -/
def settledStatuses : List MembershipStatus := [.invited,.revoked]

structure Permitted (m : MutationFields) : Prop where
  granted : rank m.desiredRoleCodes ≤ rank m.actorRoleCodes
  outranked : "tenant_owner" ∉ m.actorRoleCodes → m.target.id ≠ m.actorMembership.id →
    rank m.currentRoleCodes < rank m.actorRoleCodes
  ownership : "tenant_owner" ∉ m.actorRoleCodes →
    ("tenant_owner" ∈ m.currentRoleCodes ↔ "tenant_owner" ∈ m.desiredRoleCodes)
  department : actorIsDepartmentAdmin m = true → ∃ departmentId,
    m.actorMembership.departmentId = some departmentId ∧
    m.target.departmentId = some departmentId ∧ m.desiredDepartmentId = some departmentId
  changeable : m.target.status ∉ settledStatuses

section Checks

variable {m : MutationFields} (h : firstError (membershipMutationChecks m) = none)
include h

theorem checked_status : m.target.status ∉ settledStatuses := by
  have hc := firstError_none h (c := (decide (m.target.status ∉ [.invited,.revoked]),
    "membership state cannot be changed by Task 7")) (by simp [membershipMutationChecks])
  exact of_decide_eq_true hc

theorem checked_grant : rank m.desiredRoleCodes ≤ rank m.actorRoleCodes := by
  have hc := firstError_none h (c := (decide (rank m.desiredRoleCodes ≤ rank m.actorRoleCodes),
    "actor cannot grant a role above its hierarchy")) (by simp [membershipMutationChecks])
  exact of_decide_eq_true hc

theorem checked_hierarchy (howner : actorIsOwner m = false)
    (hother : m.target.id ≠ m.actorMembership.id) :
    rank m.currentRoleCodes < rank m.actorRoleCodes := by
  have hc := firstError_none h
    (c := (actorIsOwner m || rank m.currentRoleCodes < rank m.actorRoleCodes ||
      m.target.id == m.actorMembership.id,"actor cannot manage an equal or higher role"))
    (by simp [membershipMutationChecks])
  simpa [howner,hother] using hc

theorem checked_ownership (howner : actorIsOwner m = false) : ownerBefore m = ownerAfter m := by
  have hc := firstError_none h (c := (ownerBefore m == ownerAfter m || actorIsOwner m,
    "only an active owner may grant or remove owner role")) (by simp [membershipMutationChecks])
  simpa [howner] using hc

theorem checked_department (hadmin : actorIsDepartmentAdmin m = true) :
    m.actorMembership.departmentId.isSome ∧
    m.target.departmentId = m.actorMembership.departmentId ∧
    m.desiredDepartmentId = m.actorMembership.departmentId := by
  have hc := firstError_none h
    (c := (decide (actorIsDepartmentAdmin m → m.actorMembership.departmentId.isSome ∧
      m.target.departmentId = m.actorMembership.departmentId ∧
      m.desiredDepartmentId = m.actorMembership.departmentId ∧
      m.actorContext.departmentId = m.actorMembership.departmentId),
    "department admin can manage only the same department")) (by simp [membershipMutationChecks])
  obtain ⟨hsome,htarget,hdesired,-⟩ := of_decide_eq_true hc hadmin
  exact ⟨hsome,htarget,hdesired⟩

theorem checks_permit : Permitted m where
  granted := checked_grant h
  outranked := by
    intro howner hother
    exact checked_hierarchy h (by simpa [actorIsOwner] using howner) hother
  ownership := by
    intro howner
    have hsame := checked_ownership h (by simpa [actorIsOwner] using howner)
    simp only [ownerBefore,ownerAfter] at hsame
    rw [← List.contains_iff_mem,← List.contains_iff_mem,hsame]
  department := by
    intro hadmin
    obtain ⟨hsome,htarget,hdesired⟩ := checked_department h hadmin
    obtain ⟨departmentId,hd⟩ := Option.isSome_iff_exists.mp hsome
    exact ⟨departmentId,hd,htarget.trans hd,hdesired.trans hd⟩
  changeable := checked_status h

end Checks

/-- A mutation by anyone, or a change of anything but the memberships. -/
inductive MemberOp where
  | mutate (q : MutationCall) (c : MemberMutation)
  | elsewhere (others : TenancyDatabase)

def memberStep : MemberOp → TenancyDatabase → TenancyDatabase
  | .mutate q c, db => commit (mutateMember q c) db
  | .elsewhere others, db => membershipsOf.set db.identity.memberships others

def Settled (m : TenantMembershipModel) (db : TenancyDatabase) : Prop :=
  m ∈ db.identity.memberships ∧ m.status ∈ settledStatuses

theorem mutation_settled {q : MutationCall} {c : MemberMutation} {committed : CommittedMutation}
    {db db' : TenancyDatabase} {m : TenantMembershipModel}
    (h : MutationEffect q c db committed db') (hm : Settled m db) : Settled m db' := by
  cases h with
  | kept records task => exact hm
  | changed locked p _ h =>
    obtain ⟨t,-,-,hvalue,hreplaced⟩ := h.row
    obtain ⟨current,requested,-,-,hchecks,-⟩ := h.plan.validated
    have hstatus : t.status ∉ settledStatuses := by
      have hp := checked_status hchecks
      simp only [mutationFields,hvalue] at hp
      exact hp
    have hne : m.id ≠ t.id := by
      intro he
      have hsame : m = t := eq_of_key hm.1 hreplaced.mem he
      exact hstatus (hsame ▸ hm.2)
    exact ⟨(replaced_mem hreplaced).mpr (Or.inr ⟨hm.1,hne⟩),hm.2⟩

theorem step_settled {m : TenantMembershipModel} (op : MemberOp) (db : TenancyDatabase)
    (hm : Settled m db) : Settled m (memberStep op db) := by
  cases op with
  | mutate q c =>
    apply commit_of (P := Settled m) hm
    intro committed t ht
    exact mutation_settled (mutateMember_effect ht) hm
  | elsewhere others => exact hm

/-- What is accepted is permitted, and an invited or revoked membership stays as it is. -/
theorem mutations_permitted (m : Checked membershipMutationChecks) (ops : List MemberOp)
    (db : TenancyDatabase) (r : TenantMembershipModel) (hr : r ∈ db.identity.memberships)
    (hs : r.status ∈ settledStatuses) :
    Permitted m.value ∧ r ∈ (run memberStep ops db).identity.memberships := by
  constructor
  · exact checks_permit m.valid
  · exact (run_invariant (I := Settled r) step_settled ops db ⟨hr,hs⟩).1

def sampleAdmin : MembershipFields where
  id := ⟨0,1,1⟩
  tenantId := ⟨0,2,1⟩
  userId := ⟨0,3,1⟩
  departmentId := none
  memberType := .internal
  status := .active
  validFrom := 0
  validUntil := none
  authzVersion := 1
  version := 1

def sampleAssistant : MembershipFields := {sampleAdmin with id := ⟨0,1,2⟩, userId := ⟨0,3,2⟩}

def sampleRevoked : TenantMembershipModel :=
  ⟨{sampleAdmin with id := ⟨0,1,3⟩, userId := ⟨0,3,3⟩, status := .revoked}⟩

def sampleMutation : MutationFields where
  actorMembership := sampleAdmin
  actorRoleCodes := ["tenant_admin"]
  actorContext := {
    tenantId := ⟨0,2,1⟩
    membershipId := some ⟨0,1,1⟩
    membershipUserId := some ⟨0,3,1⟩
    departmentId := none
    tenantStatus := .active
    membershipStatus := some .active
    validFrom := some 0
    validUntil := none
    authzVersion := some 1
    sessionAuthzVersion := some 1
    scope := {}}
  target := sampleAssistant
  currentRoleCodes := ["assistant"]
  desiredStatus := .suspended
  desiredDepartmentId := none
  desiredRoleCodes := ["lawyer_or_legal"]
  action := .membershipUpdate

def sampleMembers : TenancyDatabase :=
  membershipsOf.set (.single sampleRevoked rfl) TenantOwners.seeded

theorem revoked_member_kept : Permitted sampleMutation ∧
    sampleRevoked ∈ (run memberStep [.elsewhere TenantOwners.seeded]
      sampleMembers).identity.memberships :=
  mutations_permitted ⟨sampleMutation,by decide⟩ _ sampleMembers sampleRevoked
    (List.mem_singleton_self _) (by decide)

end LawyerAgent.MembershipRules
