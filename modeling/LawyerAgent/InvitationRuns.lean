import LawyerAgent.InvitationAcceptance

/-!
# Runs of creations and acceptances

Every creation and every acceptance that is no replay is logged with what it
found and left. An invitation that is consumed is never pending again, so no
two acceptances in the log are of one invitation.
-/

set_option autoImplicit false

namespace LawyerAgent.InvitationAcceptance
open Relational Common Tenancy IdentityTables
open TenantWorkflowTables MembershipRepository Invitations
open TenantOwners

structure Creation where
  call : CreateInvitationCall
  target : String

structure Acceptance where
  call : AcceptInvitationCall
  identities : List AuthIdentity
  result : InvitationAcceptanceResult
  before : TenancyDatabase
  after : TenancyDatabase

structure InvitationWorld where
  db : TenancyDatabase
  identities : List AuthIdentity
  created : List Creation
  accepted : List Acceptance

def InvitationWorld.start (db : TenancyDatabase) (identities : List AuthIdentity) :
    InvitationWorld :=
  ⟨db,identities,[],[]⟩

/-- A process has its own key ring: a creation is given the active version, an
acceptance all versions. Identities are added and verified by other calls. -/
inductive InvitationOp where
  | identities (identities : List AuthIdentity)
  | create (q : CreateInvitationCall) (target : String) (activeVersion : ℕ)
  | accept (q : AcceptInvitationCall) (versions : List ℕ) (locator : InvitationLocator)

variable (digest : BlindDigest)

def targeted (q : CreateInvitationCall) (target : String) (activeVersion : ℕ) :
    CreateInvitationCall :=
  {q with activeIndex := some (inviteIndex digest q.command.value.targetKind target activeVersion)}

def identified (q : AcceptInvitationCall) (versions : List ℕ) (identities : List AuthIdentity) :
    AcceptInvitationCall :=
  {q with candidates := candidatesOf digest versions q.actorUserId identities}

/-- A call that fails is rolled back. -/
def invitationStep : InvitationOp → InvitationWorld → InvitationWorld
  | .identities identities, w => {w with identities := identities}
  | .create q target activeVersion, w =>
    match createLocked (targeted digest q target activeVersion) w.db with
    | .error _ => w
    | .ok (result,db) =>
      if result.replayed then {w with db := db}
      else {w with db := db, created := w.created++[⟨q,target⟩]}
  | .accept q versions locator, w =>
    match acceptLocated (identified digest q versions w.identities) locator w.db with
    | .error _ => w
    | .ok (result,db) =>
      if result.replayed then {w with db := db}
      else {w with
        db := db
        accepted := w.accepted++[⟨q,w.identities,result,w.db,db⟩]}

inductive InvitationEffect (w : InvitationWorld) : InvitationWorld → Prop
  | kept : InvitationEffect w w
  | identities (identities : List AuthIdentity) :
      InvitationEffect w {w with identities := identities}
  | replayed (db : TenancyDatabase) (unchanged : Unchanged w.db db) :
      InvitationEffect w {w with db := db}
  | created (q : CreateInvitationCall) (target : String) (v : ℕ) (actorMembershipId : UUID7)
      (db : TenancyDatabase)
      (invitations : Inserted (newInvitation q actorMembershipId
        (inviteIndex digest q.command.value.targetKind target v)) w.db.invitations db.invitations)
      (invitationRoles : db.invitationRoles.rows = q.command.value.roleIds.map
        (fun id => ⟨q.actor.context.tenantId,q.invitationId,id⟩)++w.db.invitationRoles.rows)
      (identity : db.identity = w.db.identity) :
      InvitationEffect w {w with db := db, created := w.created++[⟨q,target⟩]}
  | accepted (q : AcceptInvitationCall) (versions : List ℕ) (i : TenantInvitationModel)
      (roles : List (UUID7 × String)) (result : InvitationAcceptanceResult) (db : TenancyDatabase)
      (effect : AcceptanceEffect (identified digest q versions w.identities) i roles result w.db
        db) :
      InvitationEffect w {w with
        db := db
        accepted := w.accepted++[⟨q,w.identities,result,w.db,db⟩]}

theorem invitationStep_effect (op : InvitationOp) (w : InvitationWorld) :
    InvitationEffect digest w (invitationStep digest op w) := by
  cases op with
  | identities identities => exact .identities identities
  | create q target v =>
    simp only [invitationStep]
    split
    · exact .kept
    · rename_i result db hcreate
      cases createLocked_effect hcreate with
      | replayed _ _ hreplayed hunchanged =>
        rw [if_pos hreplayed]
        exact .replayed db hunchanged
      | created actorMembershipId index _ _ hfresh hindex hinvitations hroles hidentity =>
        obtain rfl := Option.some.inj hindex
        rw [if_neg (by rw [hfresh]; exact Bool.false_ne_true)]
        exact .created q target v actorMembershipId db hinvitations hroles hidentity
  | accept q versions locator =>
    simp only [invitationStep]
    split
    · exact .kept
    · rename_i result db haccept
      rcases acceptLocated_effect haccept with ⟨hreplayed,hunchanged⟩ | ⟨i,roles,heffect⟩
      · rw [if_pos hreplayed]
        exact .replayed db hunchanged
      · rw [if_neg (by rw [heffect.fresh]; exact Bool.false_ne_true)]
        exact .accepted q versions i roles result db heffect

/-- The membership of the result is active under the invited roles and the
member type that they imply, and none of them is the owner's. -/
structure Conferred (i : TenantInvitationModel) (x : Acceptance) : Prop where
  row : ∃ m ∈ x.after.identity.memberships, m.toMembershipFields = x.result.membership.value
  tenant : x.result.membership.value.tenantId = i.tenantId
  user : x.result.membership.value.userId = x.call.actorUserId
  status : x.result.membership.value.status = .active
  roles : ∀ id, id ∈ roleIds i.tenantId x.result.membership.value.id x.after.identity ↔
    Offers i x.before id
  implied : ∃ codes : List String, (∀ code, code ∈ codes ↔ ∃ r ∈ x.after.identity.tenantRoles,
      r.tenantId = i.tenantId ∧
      r.id ∈ roleIds i.tenantId x.result.membership.value.id x.after.identity ∧ r.code = code) ∧
    memberTypeForRoles codes = some x.result.membership.value.memberType
  noOwner : ∀ r ∈ x.after.identity.tenantRoles, r.tenantId = i.tenantId →
    r.id ∈ roleIds i.tenantId x.result.membership.value.id x.after.identity →
    r.code ≠ "tenant_owner"

/-- A membership that is not invited keeps its row and its roles. -/
def Untouched (db db' : TenancyDatabase) : Prop :=
  ∀ m ∈ db.identity.memberships, m.status ≠ .invited → m ∈ db'.identity.memberships ∧
    ∀ a, a.membershipId = m.id → (a ∈ db'.identity.assignments ↔ a ∈ db.identity.assignments)

structure AcceptedSound (x : Acceptance) : Prop where
  consumes : ∃ i ∈ x.before.invitations, x.result.invitationId = i.id ∧ i.status = .pending ∧
    x.call.now < i.expiresAt ∧ Verified digest x.call.actorUserId x.identities i ∧
    Conferred i x ∧ consumed x.call.now i ∈ x.after.invitations
  untouched : Untouched x.before x.after

theorem codes_complete {tenantId : UUID7} {ids : List UUID7} {d : Identity}
    {found : List (UUID7 × String)}
    (h : roleCodesForIds tenantId ids d = some found) {id : UUID7} (hid : id ∈ ids) :
    ∃ r ∈ d.tenantRoles, r.tenantId = tenantId ∧ r.id = id ∧ r.status = .active := by
  unfold roleCodesForIds at h
  by_cases hnil : ids = []
  · rw [hnil] at hid
    cases hid
  rw [if_neg hnil] at h
  by_cases hlength : (activeRolesAmong tenantId ids d).length = ids.length
  · have hkeys : ((activeRolesAmong tenantId ids d).map TenantRoleModel.id).Nodup := by
      apply ((nodup_rows d.tenantRoles).filter _).map_on
      intro r hr s hs hrs
      exact eq_of_key (List.mem_filter.mp hr).1 (List.mem_filter.mp hs).1 hrs
    have hsub : (activeRolesAmong tenantId ids d).map TenantRoleModel.id ⊆ ids := by
      intro x hx
      obtain ⟨r,hr,rfl⟩ := List.mem_map.mp hx
      exact (mem_activeRolesAmong.mp hr).2.2.1
    have hperm := (List.subperm_of_subset hkeys hsub).perm_of_length_le
      (by rw [List.length_map,hlength])
    obtain ⟨r,hr,hrid⟩ := List.mem_map.mp (hperm.mem_iff.mpr hid)
    obtain ⟨hmem,htenant,-,hactive⟩ := mem_activeRolesAmong.mp hr
    exact ⟨r,hmem,htenant,hrid,hactive⟩
  · rw [if_neg hlength] at h
    cases h

def offeredIds (i : TenantInvitationModel) (db : TenancyDatabase) : List UUID7 :=
  sortedIds ((selectRows (fun a => a.tenantId == i.tenantId && a.invitationId == i.id)
    db.invitationRoles).map TenantInvitationRoleAssignmentModel.tenantRoleId)

variable {db : TenancyDatabase} {i : TenantInvitationModel} {roles : List (UUID7 × String)}
  {q : AcceptInvitationCall} {result : InvitationAcceptanceResult} {versions : List ℕ}
  {w : InvitationWorld}

theorem mem_offeredIds {id : UUID7} :
    id ∈ offeredIds i db ↔ Offers i db id := by
  rw [offeredIds,mem_sortedIds,List.mem_map]
  simp only [mem_selectRows,Bool.and_eq_true,beq_iff_eq]
  constructor
  · rintro ⟨a,⟨ha,ht,hi⟩,rfl⟩
    exact ⟨a,ha,ht,hi,rfl⟩
  · rintro ⟨a,ha,ht,hi,rfl⟩
    exact ⟨a,⟨ha,ht,hi⟩,rfl⟩

theorem offeredRoles_ids (h : offeredRoles i db = some roles) :
    roleCodesForIds i.tenantId (offeredIds i db) db.identity = some roles := by
  unfold offeredRoles invitedRoleCodes at h
  split at h
  · cases h
  · exact h

theorem memberType_noOwner {codes : List String} {memberType : MemberType}
    (h : memberTypeForRoles codes = some memberType) : "tenant_owner" ∉ codes := by
  intro howner
  unfold memberTypeForRoles at h
  rw [if_pos (by rw [List.contains_iff_mem.mpr howner]; rfl)] at h
  cases h

theorem acceptance_conferred {identities : List AuthIdentity} {db db' : TenancyDatabase}
    (h : AcceptanceEffect (identified digest q versions identities) i roles result db db') :
    Conferred i ⟨q,identities,result,db,db'⟩ := by
  have hfound := offeredRoles_ids h.offered
  have hids : ∀ id, id ∈ result.roleIds ↔ Offers i db id := by
    intro id
    rw [h.ids,mem_sortedIds,← mem_offeredIds]
    constructor
    · intro hid
      obtain ⟨p,hp,rfl⟩ := List.mem_map.mp hid
      obtain ⟨r,-,-,hrid,-,rfl⟩ := (mem_codesForIds hfound).mp hp
      exact hrid
    · intro hid
      obtain ⟨r,hr,htenant,hrid,hactive⟩ := codes_complete hfound hid
      subst hrid
      exact List.mem_map.mpr ⟨_,(mem_codesForIds hfound).mpr ⟨r,hr,htenant,hid,hactive,rfl⟩,rfl⟩
  have hroles : ∀ id, id ∈ roleIds i.tenantId result.membership.value.id db'.identity ↔
      Offers i db id := by
    intro id
    rw [← hids,mem_roleIds]
    simp only [mem_rows,h.assignments,List.mem_append,List.mem_map,List.mem_filter]
    constructor
    · rintro ⟨a,⟨x,hx,rfl⟩ | ⟨-,hother⟩,htenant,hmember,rfl⟩
      · exact hx
      · rw [← htenant,← hmember] at hother
        simp [assignedTo] at hother
    · intro hid
      exact ⟨_,Or.inl ⟨id,hid,rfl⟩,rfl,rfl,rfl⟩
  have hcodes : ∀ code, code ∈ roles.map Prod.snd ↔ ∃ r ∈ db'.identity.tenantRoles,
      r.tenantId = i.tenantId ∧
      r.id ∈ roleIds i.tenantId result.membership.value.id db'.identity ∧ r.code = code := by
    intro code
    simp only [List.mem_map,mem_codesForIds hfound,h.tenantRoles,hroles,← mem_offeredIds]
    constructor
    · rintro ⟨p,⟨r,hr,htenant,hrid,-,rfl⟩,rfl⟩
      exact ⟨r,hr,htenant,hrid,rfl⟩
    · rintro ⟨r,hr,htenant,hrid,rfl⟩
      obtain ⟨s,hs,-,hsid,hactive⟩ := codes_complete hfound hrid
      obtain rfl : s = r := eq_of_key hs hr hsid
      exact ⟨_,⟨s,hr,htenant,hrid,hactive,rfl⟩,rfl⟩
  refine ⟨h.member.row,h.member.tenant,h.member.user,h.member.status,hroles,?_,?_⟩
  · exact ⟨roles.map Prod.snd,hcodes,h.implied⟩
  · intro r hr htenant hrid hcode
    apply memberType_noOwner h.implied
    exact (hcodes _).mpr ⟨r,hr,htenant,hrid,hcode⟩

theorem acceptance_untouched {db db' : TenancyDatabase}
    (h : AcceptanceEffect q i roles result db db') :
    Untouched db db' := by
  intro m hm hstatus
  obtain ⟨hkept,hne⟩ := h.member.kept m hm hstatus
  refine ⟨hkept,?_⟩
  intro a ha
  rw [← ha] at hne
  simp only [mem_rows,h.assignments,List.mem_append,List.mem_map,List.mem_filter]
  constructor
  · rintro (⟨x,-,rfl⟩ | ⟨hold,-⟩)
    · exact absurd rfl hne
    · exact hold
  · intro hold
    exact Or.inr ⟨hold,by simp [assignedTo,hne]⟩

theorem acceptance_sound {identities : List AuthIdentity} {db db' : TenancyDatabase}
    (h : AcceptanceEffect (identified digest q versions identities) i roles result db db') :
    AcceptedSound digest ⟨q,identities,result,db,db'⟩ := by
  have hacceptable := h.acceptable
  simp only [acceptable,Bool.and_eq_true,beq_iff_eq] at hacceptable
  obtain ⟨⟨⟨⟨hpending,-⟩,-⟩,hexpiry⟩,hmatches⟩ := hacceptable
  refine ⟨⟨i,h.mem,h.invitation,hpending,of_decide_eq_true hexpiry,?_,?_,?_⟩,
    acceptance_untouched h⟩
  · exact matchesTarget_verified hmatches
  · exact acceptance_conferred digest h
  · exact (replaced_mem h.consumed).mpr (Or.inl rfl)

def CreatedSound (c : Creation) (db : TenancyDatabase) : Prop :=
  ∃ i ∈ db.invitations, i.id = c.call.invitationId ∧
    i.tenantId = c.call.actor.context.tenantId ∧
    i.targetKind = c.call.command.value.targetKind ∧
    i.expiresAt = c.call.command.value.expiresAt ∧
    (∃ v, i.targetBlindIndexKeyVersion = some v ∧
      i.targetBlindIndex = digest v ("invite:"++targetKindValue i.targetKind) c.target) ∧
    ∀ id, Offers i db id ↔ id ∈ c.call.command.value.roleIds

def Referenced (db : TenancyDatabase) : Prop :=
  ∀ a ∈ db.invitationRoles, ∃ i ∈ db.invitations, i.tenantId = a.tenantId ∧ i.id = a.invitationId

structure LogSound (w : InvitationWorld) : Prop where
  referenced : Referenced w.db
  accepted : ∀ x ∈ w.accepted, AcceptedSound digest x
  closed : ∀ x ∈ w.accepted, ∃ i ∈ w.db.invitations, i.id = x.result.invitationId ∧
    i.status = .accepted
  once : (w.accepted.map fun x => x.result.invitationId).Nodup
  created : ∀ c ∈ w.created, CreatedSound digest c w.db
  matched : ∀ x ∈ w.accepted, ∀ c ∈ w.created, c.call.invitationId = x.result.invitationId →
    CreatedSound digest c x.before

theorem offers_congr {i j : TenantInvitationModel} {db db' : TenancyDatabase} {id : UUID7}
    (htenant : i.tenantId = j.tenantId) (hid : i.id = j.id)
    (hroles : db'.invitationRoles = db.invitationRoles) : Offers i db' id ↔ Offers j db id := by
  unfold Offers
  rw [htenant,hid,hroles]

variable {digest}

theorem unchanged_sound (h : LogSound digest w) (hdb : Unchanged w.db db) :
    LogSound digest {w with db := db} := by
  refine ⟨?_,h.accepted,?_,h.once,?_,h.matched⟩
  · unfold Referenced
    rw [hdb.invitations,hdb.invitationRoles]
    exact h.referenced
  · show ∀ x ∈ w.accepted, ∃ i ∈ db.invitations, _
    rw [hdb.invitations]
    exact h.closed
  · intro c hc
    obtain ⟨i,hi,hid,htenant,hkind,hexpiry,htarget,hroles⟩ := h.created c hc
    refine ⟨i,?_,hid,htenant,hkind,hexpiry,htarget,?_⟩
    · rw [hdb.invitations]
      exact hi
    · intro id
      rw [offers_congr rfl rfl hdb.invitationRoles]
      exact hroles id

theorem created_sound (h : LogSound digest w) {q : CreateInvitationCall} {target : String} {v : ℕ}
    {actorMembershipId : UUID7}
    (hinvitations : Inserted (newInvitation q actorMembershipId (inviteIndex digest
      q.command.value.targetKind target v)) w.db.invitations db.invitations)
    (hroles : db.invitationRoles.rows = q.command.value.roleIds.map (fun id =>
      ⟨q.actor.context.tenantId,q.invitationId,id⟩)++w.db.invitationRoles.rows) :
    LogSound digest {w with db := db, created := w.created++[⟨q,target⟩]} := by
  have hfresh : ∀ i ∈ w.db.invitations, q.invitationId ≠ i.id := by
    intro i hi
    exact (inserted_fresh hinvitations hi).1
  refine ⟨?_,h.accepted,?_,h.once,?_,?_⟩
  · intro a ha
    rw [mem_rows,hroles,List.mem_append,List.mem_map] at ha
    rcases ha with ⟨id,-,rfl⟩ | ha
    · exact ⟨_,(inserted_mem hinvitations).mpr (Or.inl rfl),rfl,rfl⟩
    · obtain ⟨i,hi,hkey⟩ := h.referenced a ha
      exact ⟨i,(inserted_mem hinvitations).mpr (Or.inr hi),hkey⟩
  · intro x hx
    obtain ⟨i,hi,hclosed⟩ := h.closed x hx
    exact ⟨i,(inserted_mem hinvitations).mpr (Or.inr hi),hclosed⟩
  · intro c hc
    rcases List.mem_append.mp hc with hc | hc
    · obtain ⟨i,hi,hid,htenant,hkind,hexpiry,htarget,hoffers⟩ := h.created c hc
      refine ⟨i,(inserted_mem hinvitations).mpr (Or.inr hi),hid,htenant,hkind,hexpiry,htarget,?_⟩
      intro id
      rw [← hoffers id]
      unfold Offers
      simp only [mem_rows,hroles,List.mem_append,List.mem_map]
      constructor
      · rintro ⟨a,⟨x,-,rfl⟩ | ha,hat,hai,har⟩
        · exact absurd hai (hfresh i hi)
        · exact ⟨a,ha,hat,hai,har⟩
      · rintro ⟨a,ha,hrest⟩
        exact ⟨a,Or.inr ha,hrest⟩
    · obtain rfl := List.mem_singleton.mp hc
      refine ⟨_,(inserted_mem hinvitations).mpr (Or.inl rfl),rfl,rfl,rfl,rfl,⟨v,rfl,rfl⟩,?_⟩
      intro id
      unfold Offers
      simp only [mem_rows,hroles,List.mem_append,List.mem_map]
      constructor
      · rintro ⟨a,⟨x,hx,rfl⟩ | ha,-,hai,har⟩
        · obtain rfl : x = id := har
          exact hx
        · obtain ⟨i,hi,-,hid⟩ := h.referenced a ha
          exact absurd (hid.trans hai).symm (hfresh i hi)
      · intro hid
        exact ⟨_,Or.inl ⟨id,hid,rfl⟩,rfl,rfl,rfl⟩
  · intro x hx c hc hid
    rcases List.mem_append.mp hc with hc | hc
    · exact h.matched x hx c hc hid
    · obtain rfl := List.mem_singleton.mp hc
      obtain ⟨i,hi,hix,-⟩ := h.closed x hx
      exact absurd (hid.trans hix.symm) (hfresh i hi)

theorem accepted_sound (h : LogSound digest w)
    (heffect : AcceptanceEffect (identified digest q versions w.identities) i roles result w.db db)
    : LogSound digest {w with
      db := db
      accepted := w.accepted++[⟨q,w.identities,result,w.db,db⟩]} := by
  have hsound := acceptance_sound digest heffect
  have hpending : i.status = .pending := by
    have hacceptable := heffect.acceptable
    simp only [acceptable,Bool.and_eq_true,beq_iff_eq] at hacceptable
    exact hacceptable.1.1.1.1
  have hrow : ∀ j ∈ w.db.invitations, ∃ k ∈ db.invitations, k.id = j.id ∧
      k.tenantId = j.tenantId ∧ k.targetKind = j.targetKind ∧ k.expiresAt = j.expiresAt ∧
      k.targetBlindIndexKeyVersion = j.targetBlindIndexKeyVersion ∧
      k.targetBlindIndex = j.targetBlindIndex ∧ (j.status = .accepted → k.status = .accepted) := by
    intro j hj
    by_cases hid : j.id = i.id
    · obtain rfl : j = i := eq_of_key hj heffect.mem hid
      exact ⟨_,(replaced_mem heffect.consumed).mpr (Or.inl rfl),rfl,rfl,rfl,rfl,rfl,rfl,
        fun _ => rfl⟩
    · exact ⟨j,(replaced_mem heffect.consumed).mpr (Or.inr ⟨hj,hid⟩),rfl,rfl,rfl,rfl,rfl,rfl,id⟩
  have hopen : ∀ x ∈ w.accepted, x.result.invitationId ≠ result.invitationId := by
    intro x hx hsame
    obtain ⟨j,hj,hjx,hjs⟩ := h.closed x hx
    obtain rfl : j = i := eq_of_key hj heffect.mem (hjx.trans (hsame.trans heffect.invitation))
    rw [hpending] at hjs
    cases hjs
  refine ⟨?_,?_,?_,?_,?_,?_⟩
  · intro a ha
    rw [show db.invitationRoles = w.db.invitationRoles from heffect.invitationRoles] at ha
    obtain ⟨j,hj,htenant,hid⟩ := h.referenced a ha
    obtain ⟨k,hk,hkid,hkt,-⟩ := hrow j hj
    exact ⟨k,hk,hkt.trans htenant,hkid.trans hid⟩
  · intro x hx
    rcases List.mem_append.mp hx with hx | hx
    · exact h.accepted x hx
    · obtain rfl := List.mem_singleton.mp hx
      exact hsound
  · intro x hx
    rcases List.mem_append.mp hx with hx | hx
    · obtain ⟨j,hj,hjx,hjs⟩ := h.closed x hx
      obtain ⟨k,hk,hkid,-,-,-,-,-,hks⟩ := hrow j hj
      exact ⟨k,hk,hkid.trans hjx,hks hjs⟩
    · obtain rfl := List.mem_singleton.mp hx
      exact ⟨_,(replaced_mem heffect.consumed).mpr (Or.inl rfl),heffect.invitation.symm,rfl⟩
  · show ((w.accepted++[_]).map _).Nodup
    rw [List.map_append,List.map_singleton,← List.concat_eq_append,List.nodup_concat]
    refine ⟨?_,h.once⟩
    intro hmem
    obtain ⟨x,hx,hsame⟩ := List.mem_map.mp hmem
    exact hopen x hx hsame
  · intro c hc
    obtain ⟨j,hj,hid,htenant,hkind,hexpiry,⟨v,hv,htarget⟩,hoffers⟩ := h.created c hc
    obtain ⟨k,hk,hkid,hkt,hkk,hke,hkv,hkb,-⟩ := hrow j hj
    refine ⟨k,hk,hkid.trans hid,hkt.trans htenant,hkk.trans hkind,hke.trans hexpiry,
      ⟨v,hkv.trans hv,?_⟩,?_⟩
    · rw [hkb,hkk]
      exact htarget
    · intro id
      rw [offers_congr hkt hkid heffect.invitationRoles]
      exact hoffers id
  · intro x hx c hc hid
    rcases List.mem_append.mp hx with hx | hx
    · exact h.matched x hx c hc hid
    · obtain rfl := List.mem_singleton.mp hx
      exact h.created c hc

theorem invitationStep_sound (op : InvitationOp) (w : InvitationWorld) (h : LogSound digest w) :
    LogSound digest (invitationStep digest op w) := by
  have heffect := invitationStep_effect digest op w
  generalize invitationStep digest op w = w' at heffect
  cases heffect with
  | kept => exact h
  | identities identities => exact ⟨h.referenced,h.accepted,h.closed,h.once,h.created,h.matched⟩
  | replayed db hunchanged => exact unchanged_sound h hunchanged
  | created q target v actorMembershipId db hinvitations hroles hidentity =>
    exact created_sound h hinvitations hroles
  | accepted q versions i roles result db heffect => exact accepted_sound h heffect

theorem invitationStep_rows (op : InvitationOp) (w : InvitationWorld) (hi : i ∈ w.db.invitations) :
    i ∈ (invitationStep digest op w).db.invitations ∨
      ∃ x, (invitationStep digest op w).accepted = w.accepted++[x] ∧
        x.result.invitationId = i.id ∧ x.before = w.db := by
  have heffect := invitationStep_effect digest op w
  generalize invitationStep digest op w = w' at heffect
  cases heffect with
  | kept => exact Or.inl hi
  | identities identities => exact Or.inl hi
  | replayed db hunchanged =>
    left
    rw [hunchanged.invitations]
    exact hi
  | created q target v actorMembershipId db hinvitations hroles hidentity =>
    exact Or.inl ((inserted_mem hinvitations).mpr (Or.inr hi))
  | accepted q versions j roles result db heffect =>
    by_cases hid : i.id = j.id
    · exact Or.inr ⟨_,rfl,heffect.invitation.trans hid.symm,rfl⟩
    · exact Or.inl ((replaced_mem heffect.consumed).mpr (Or.inr ⟨hi,hid⟩))

theorem untouched_refl (db : TenancyDatabase) : Untouched db db :=
  fun _ hm _ => ⟨hm,fun _ _ => Iff.rfl⟩

theorem invitationStep_untouched (op : InvitationOp) (w : InvitationWorld) :
    Untouched w.db (invitationStep digest op w).db := by
  have hidentity : ∀ db : TenancyDatabase, db.identity = w.db.identity → Untouched w.db db := by
    intro db hdb
    unfold Untouched
    rw [hdb]
    exact untouched_refl w.db
  have heffect := invitationStep_effect digest op w
  generalize invitationStep digest op w = w' at heffect
  cases heffect with
  | kept => exact untouched_refl w.db
  | identities identities => exact untouched_refl w.db
  | replayed db hunchanged => exact hidentity db hunchanged.identity
  | created q target v actorMembershipId db hinvitations hroles hsame => exact hidentity db hsame
  | accepted q versions i roles result db heffect => exact acceptance_untouched heffect

theorem start_sound (hdb : Referenced db) (identities : List AuthIdentity) :
    LogSound digest (.start db identities) := by
  refine ⟨hdb,?_,?_,List.nodup_nil,?_,?_⟩
  · intro x hx
    cases hx
  · intro x hx
    cases hx
  · intro c hc
    cases hc
  · intro x hx
    cases hx

/-- The invitations of a run. Each is consumed at most once, by an acceptance
that is sound, and is changed in no other way. If it was created in the run, its
target and its roles are those of its creation. No step touches a membership
that is not invited, and an acceptance that fails changes nothing. -/
theorem invitations_sound (digest : BlindDigest) {db : TenancyDatabase} (hdb : Referenced db)
    (identities : List AuthIdentity) (ops : List InvitationOp) :
    let w := run (invitationStep digest) ops (.start db identities)
    (w.accepted.map fun x => x.result.invitationId).Nodup ∧
    (∀ x ∈ w.accepted, AcceptedSound digest x) ∧
    (∀ x ∈ w.accepted, ∀ c ∈ w.created, c.call.invitationId = x.result.invitationId →
      CreatedSound digest c x.before) ∧
    (∀ op, ∀ i ∈ w.db.invitations, i ∈ (invitationStep digest op w).db.invitations ∨
      ∃ x, (invitationStep digest op w).accepted = w.accepted++[x] ∧
        x.result.invitationId = i.id ∧ x.before = w.db) ∧
    (∀ op, Untouched w.db (invitationStep digest op w).db) ∧
    ∀ q versions locator e,
      outcome (acceptLocated (identified digest q versions w.identities) locator) w.db =
        .error e → invitationStep digest (.accept q versions locator) w = w := by
  intro w
  have hw : LogSound digest w :=
    run_invariant invitationStep_sound ops _ (start_sound hdb identities)
  refine ⟨hw.once,hw.accepted,hw.matched,?_,?_,?_⟩
  · intro op i hi
    exact invitationStep_rows op w hi
  · intro op
    exact invitationStep_untouched op w
  · intro q versions locator e hfailed
    cases haccept : acceptLocated (identified digest q versions w.identities) locator w.db with
    | error failure => simp only [invitationStep,haccept]
    | ok accepted =>
      rw [outcome,haccept] at hfailed
      cases hfailed

def sampleDigest (version : ℕ) (purpose value : String) : Digest :=
  BitVec.ofNat 256 ((purpose++value).toList.foldl (fun n c => 256*n+c.toNat) version)

def sampleGuest : UUID7 := ⟨0,4,1⟩

def sampleInvitation : TenantInvitationModel where
  id := ⟨0,11,0⟩
  tenantId := ⟨0,6,0⟩
  targetKind := .phone
  targetBlindIndex := sampleDigest 1 "invite:phone" "+8613800000000"
  targetBlindIndexKeyVersion := some 1
  tokenHash := 7
  invitedByMembershipId := ⟨0,7,0⟩
  expiresAt := 100
  updatedAt := 0

def invitedDatabase : TenancyDatabase :=
  {seeded with
    rollout := {seeded.rollout with
      identity := {seeded.rollout.identity with
        users := .single ⟨sampleGuest,.active,1⟩ rfl
        tenants := .single ⟨⟨0,6,0⟩,"Firm","firm",.lawFirm,.active,sampleUser,.approved,1⟩ rfl
        tenantRoles := .single ⟨⟨0,8,0⟩,⟨0,6,0⟩,none,"lawyer","Lawyer",false,.active,1⟩ rfl}}
    invitations := .single sampleInvitation rfl
    invitationRoles := .single ⟨⟨0,6,0⟩,⟨0,11,0⟩,⟨0,8,0⟩⟩ rfl}

def sampleAcceptance : AcceptInvitationCall where
  service := sampleService
  actorUserId := sampleGuest
  tokenHash := 7
  candidates := fun _ => []
  prepared := ⟨1,1⟩
  recordId := ⟨0,5,0⟩
  membershipId := ⟨0,7,1⟩
  now := 10
  currentTimestamp := 10

def sampleOps : List InvitationOp :=
  [.identities [⟨sampleGuest,.phone,some "+8613800000000",true,some 1⟩],
    .accept sampleAcceptance [1,2] ⟨⟨0,11,0⟩,⟨0,6,0⟩⟩]

theorem invited_referenced : Referenced invitedDatabase := by
  intro a ha
  have ha : a ∈ [_] := ha
  obtain rfl := List.mem_singleton.mp ha
  exact ⟨sampleInvitation,List.mem_singleton_self _,rfl,rfl⟩

/-- The guest's acceptance is logged, and it is sound. -/
theorem guest_accepted : ∃ x ∈ (run (invitationStep sampleDigest) sampleOps
    (.start invitedDatabase [])).accepted,
    x.result.invitationId = ⟨0,11,0⟩ ∧ AcceptedSound sampleDigest x := by
  have hsound := (invitations_sound sampleDigest invited_referenced [] sampleOps).2.1
  have hlogged : ⟨0,11,0⟩ ∈ (run (invitationStep sampleDigest) sampleOps
      (.start invitedDatabase [])).accepted.map fun x => x.result.invitationId := by
    decide
  obtain ⟨x,hx,hid⟩ := List.mem_map.mp hlogged
  exact ⟨x,hx,hid,hsound x hx⟩

end LawyerAgent.InvitationAcceptance
