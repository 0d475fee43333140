import LawyerAgent.SessionRepository
import LawyerAgent.TenantAuthorization
import Mathlib.Data.List.ProdSigma
import Mathlib.Data.List.Sort

/-!
# Membership repository

The statements of the tenant workflows on a membership, on its roles and on
its sessions, and the row that announces a stale authorization to the cache.
-/

set_option autoImplicit false

namespace LawyerAgent.MembershipRepository
open Relational Common Tenancy IdentityTables
open SessionDomain SessionRepository TenantWorkflowTables
open TenantAuthorization hiding membershipsOf
open SessionTables hiding sessionsOf tokensOf

def lockedMember (tenantId membershipId : UUID7) (expectedVersion : ℕ)
    (m : TenantMembershipModel) : Bool :=
  isMembership tenantId membershipId m && m.version == expectedVersion

def updatedMember (status : MembershipStatus) (departmentId : Option UUID7)
    (m : TenantMembershipModel) : TenantMembershipModel :=
  {m with
    status := status
    departmentId := departmentId
    authzVersion := m.authzVersion+1
    version := m.version+1}

/-- `none` where the version is no longer the expected one. -/
def updateLocked (tenantId : UUID7) (current : Membership) (status : MembershipStatus)
    (departmentId : Option UUID7) (expectedVersion : ℕ) : TenancyTx (Option Membership) := do
  require (current.value.tenantId = tenantId)
    (.valueError "membership update does not match tenant context")
  let changed ← zoom membershipsOf (updateRows .integrityError
    (lockedMember tenantId current.value.id expectedVersion) (updatedMember status departmentId))
  if changed = 1 then do
    let model ← read fun db =>
      selectRow (isMembership tenantId current.value.id) db.identity.memberships
    match model with
    | none => pure none
    | some m => do
      let updated ← ofExcept .valueError (membershipOf m)
      pure (some updated)
  else pure none

def departmentExists (tenantId departmentId : UUID7) (d : Identity) : Bool :=
  (selectRow (fun e => e.tenantId == tenantId && e.id == departmentId && e.status == .active)
    d.departments).isSome

/-- The texts of identifiers sort as their values do. -/
def sortedIds (ids : List UUID7) : List UUID7 :=
  ids.insertionSort fun a b => a.int.toNat ≤ b.int.toNat

def assignedTo (tenantId membershipId : UUID7) (a : MembershipRoleAssignmentModel) : Bool :=
  a.tenantId == tenantId && a.membershipId == membershipId

def roleIds (tenantId membershipId : UUID7) (d : Identity) : List UUID7 :=
  sortedIds ((selectRows (assignedTo tenantId membershipId) d.assignments).map
    MembershipRoleAssignmentModel.tenantRoleId)

/-- The active roles of the tenant among `ids`. -/
def activeRolesAmong (tenantId : UUID7) (ids : List UUID7) (d : Identity) :
    List TenantRoleModel :=
  selectRows (fun r => r.tenantId == tenantId && ids.contains r.id && r.status == .active)
    d.tenantRoles

/-- `none` where one of the roles is missing or disabled. -/
def roleCodesForIds (tenantId : UUID7) (ids : List UUID7) (d : Identity) :
    Option (List (UUID7 × String)) :=
  if ids = [] then some []
  else if (activeRolesAmong tenantId ids d).length = ids.length then
    some ((activeRolesAmong tenantId ids d).map fun r => (r.id,r.code))
  else none

def isActiveOwner (tenantId : UUID7) :
    TenantMembershipModel × MembershipRoleAssignmentModel × TenantRoleModel → Bool
  | (m,a,r) => a.tenantId == m.tenantId && a.membershipId == m.id && r.tenantId == a.tenantId &&
      r.id == a.tenantRoleId && m.tenantId == tenantId && m.status == .active &&
      r.status == .active && r.code == "tenant_owner"

def countActiveOwners (tenantId : UUID7) (d : Identity) : ℕ :=
  (d.memberships.rows ×ˢ d.assignments.rows ×ˢ d.tenantRoles.rows).countP
    (isActiveOwner tenantId)

def replaceRoles (tenantId membershipId : UUID7) (ids : List UUID7)
    (assignedByMembershipId : UUID7) : TenancyTx Unit := do
  let _ ← zoom assignmentsOf (deleteRows (assignedTo tenantId membershipId))
  zoom assignmentsOf (insertRows .integrityError
    (ids.map fun id => ⟨tenantId,membershipId,id,some assignedByMembershipId⟩))

def boundToken (tenantId membershipId : UUID7) (t : RefreshTokenRecordModel) : Bool :=
  t.tenantId == some tenantId && t.membershipId == some membershipId

def boundSession (tenantId membershipId : UUID7) (s : AuthSessionModel) : Bool :=
  s.tenantId == some tenantId && s.membershipId == some membershipId

def revokeForMembership (tenantId membershipId : UUID7) (reason : RevocationReason)
    (now : Time) : TenancyTx Unit := do
  require (reason ∈ [.authorizationChanged,.membershipRevoked])
    (.valueError "unsupported tenant session revocation reason")
  let _ ← zoom tokensOf (updateRows .integrityError
    (fun t => boundToken tenantId membershipId t && t.revokedAt.isNone)
    (revokedToken reason now))
  let _ ← zoom sessionsOf (updateRows .integrityError
    (fun s => boundSession tenantId membershipId s && s.revokedAt.isNone)
    (revokedSession reason now))

structure NewAuthorizationCacheInvalidation where
  id : UUID7
  tenantId : UUID7
  membershipId : UUID7
  authzVersion : ℕ
  idempotencyRecordId : UUID7
  availableAt : Time

def newInvalidationChecks : Checks NewAuthorizationCacheInvalidation := fun t =>
  [(1 ≤ t.authzVersion ∧ t.authzVersion ≤ integerMax,"version must be a positive integer")]

def invalidationModel (t : NewAuthorizationCacheInvalidation) (currentTimestamp : Time) :
    AuthorizationCacheInvalidationOutboxModel where
  id := t.id
  tenantId := t.tenantId
  membershipId := t.membershipId
  authzVersion := t.authzVersion
  idempotencyRecordId := t.idempotencyRecordId
  availableAt := t.availableAt
  updatedAt := currentTimestamp

def addInvalidation (t : NewAuthorizationCacheInvalidation) (currentTimestamp : Time) :
    TenancyTx Unit := do
  let task ← ofExcept .valueError (postInit newInvalidationChecks t)
  zoom cacheOutboxOf
    (insertRow .integrityError (invalidationModel task.value currentTimestamp))

variable {ids : List UUID7} {d : Identity} {tenantId membershipId : UUID7}
  {db db' : TenancyDatabase} {reason : RevocationReason}

theorem mem_sortedIds {id : UUID7} : id ∈ sortedIds ids ↔ id ∈ ids :=
  (List.perm_insertionSort _ ids).mem_iff

theorem mem_roleIds {tenantId membershipId roleId : UUID7} :
    roleId ∈ roleIds tenantId membershipId d ↔ ∃ a ∈ d.assignments,
      a.tenantId = tenantId ∧ a.membershipId = membershipId ∧ a.tenantRoleId = roleId := by
  rw [roleIds,mem_sortedIds,List.mem_map]
  simp only [mem_selectRows,assignedTo,Bool.and_eq_true,beq_iff_eq]
  constructor
  · rintro ⟨a,⟨ha,ht,hm⟩,rfl⟩
    exact ⟨a,ha,ht,hm,rfl⟩
  · rintro ⟨a,ha,ht,hm,rfl⟩
    exact ⟨a,⟨ha,ht,hm⟩,rfl⟩

theorem mem_activeRolesAmong {r : TenantRoleModel} : r ∈ activeRolesAmong tenantId ids d ↔
      r ∈ d.tenantRoles ∧ r.tenantId = tenantId ∧ r.id ∈ ids ∧ r.status = .active := by
  rw [activeRolesAmong,mem_selectRows]
  simp [and_assoc]

theorem mem_codesForIds {found : List (UUID7 × String)}
    (h : roleCodesForIds tenantId ids d = some found) {p : UUID7 × String} :
    p ∈ found ↔ ∃ r ∈ d.tenantRoles, r.tenantId = tenantId ∧ r.id ∈ ids ∧
      r.status = .active ∧ p = (r.id,r.code) := by
  unfold roleCodesForIds at h
  split at h
  · rename_i hnil
    cases h
    simp [hnil]
  · split at h
    · cases h
      rw [List.mem_map]
      simp only [mem_activeRolesAmong,and_assoc]
      constructor
      · rintro ⟨r,hr,ht,hid,hs,rfl⟩
        exact ⟨r,hr,ht,hid,hs,rfl⟩
      · rintro ⟨r,hr,ht,hid,hs,rfl⟩
        exact ⟨r,hr,ht,hid,hs,rfl⟩
    · cases h

theorem isActiveOwner_iff {m : TenantMembershipModel} {a : MembershipRoleAssignmentModel}
    {r : TenantRoleModel} :
    isActiveOwner tenantId (m,a,r) = true ↔ a.tenantId = m.tenantId ∧ a.membershipId = m.id ∧
      r.tenantId = a.tenantId ∧ r.id = a.tenantRoleId ∧ m.tenantId = tenantId ∧
      m.status = .active ∧ r.status = .active ∧ r.code = "tenant_owner" := by
  simp [isActiveOwner,and_assoc]

/-- The membership under its new status and its next versions. -/
structure MemberUpdated (tenantId membershipId : UUID7) (status : MembershipStatus)
    (departmentId : Option UUID7) (expectedVersion : ℕ) (updated : MembershipFields)
    (db db' : TenancyDatabase) : Prop where
  row : ∃ m, m.tenantId = tenantId ∧ m.id = membershipId ∧ m.version = expectedVersion ∧
    updated = (updatedMember status departmentId m).toMembershipFields ∧
    Replaced m (updatedMember status departmentId m) (membershipsOf.get db)
      (membershipsOf.get db')
  frame : db' = membershipsOf.set (membershipsOf.get db') db

theorem updateLocked_ok {current updated : Membership} {status : MembershipStatus}
    {departmentId : Option UUID7} {expectedVersion : ℕ}
    (h : updateLocked tenantId current status departmentId expectedVersion db = .ok (some
      updated,db')) :
    MemberUpdated tenantId current.value.id status departmentId expectedVersion updated.value
      db db' := by
  simp only [updateLocked,bind_ok,require_ok,zoom_ok] at h
  obtain ⟨_,_,⟨-,rfl⟩,n,_,⟨t,hupdate,rfl⟩,h⟩ := h
  rcases updateRows_keyed hupdate current.value.id (by
      intro r hr
      simp only [lockedMember,isMembership,Bool.and_eq_true,beq_iff_eq] at hr
      exact hr.1.2) (fun _ => rfl) with ⟨rfl,-,-⟩ | ⟨rfl,m,hm,hreplaced⟩
  · simp at h
  simp only [lockedMember,isMembership,Bool.and_eq_true,beq_iff_eq] at hm
  obtain ⟨⟨htenant,hid⟩,hversion⟩ := hm
  simp only [if_true,bind_ok,read_ok] at h
  obtain ⟨_,_,⟨rfl,rfl⟩,h⟩ := h
  have hfound : selectRow (isMembership tenantId current.value.id)
      (membershipsOf.set t db).identity.memberships =
        some (updatedMember status departmentId m) := by
    refine selectRow_eq ((replaced_mem hreplaced).mpr (Or.inl rfl)) ?_ fun x hx hcond => ?_
    · simp [isMembership,updatedMember,htenant,hid]
    · simp only [isMembership,Bool.and_eq_true,beq_iff_eq] at hcond
      exact eq_of_key hx ((replaced_mem hreplaced).mpr (Or.inl rfl))
        (hcond.2.trans hid.symm)
  rw [hfound] at h
  simp only [bind_ok,ofExcept_ok,pure_ok,Option.some.injEq] at h
  obtain ⟨_,_,⟨hmember,rfl⟩,rfl,rfl⟩ := h
  exact ⟨⟨m,htenant,hid,hversion,postInit_ok hmember,hreplaced⟩,rfl⟩

theorem replaceRoles_ok {tenantId membershipId assignedBy : UUID7} {u : Unit}
    (h : replaceRoles tenantId membershipId ids assignedBy db = .ok (u,db')) :
    (assignmentsOf.get db').rows =
      ids.map (fun id => ⟨tenantId,membershipId,id,some assignedBy⟩) ++
        (assignmentsOf.get db).rows.filter (fun a => !assignedTo tenantId membershipId a) ∧
    db' = assignmentsOf.set (assignmentsOf.get db') db := by
  simp only [replaceRoles,bind_ok,zoom_ok,deleteRows_ok,insertRows_ok] at h
  obtain ⟨_,_,⟨deleted,⟨-,hdeleted⟩,rfl⟩,t,hinserted,rfl⟩ := h
  rw [assignmentsOf.get_set,hdeleted] at hinserted
  exact ⟨hinserted,rfl⟩

/-- Every bound row is revoked, and nothing but sessions and tokens is written. -/
structure SessionsRevoked (tenantId membershipId : UUID7) (reason : RevocationReason) (now : Time)
    (db db' : TenancyDatabase) : Prop where
  tokens : (tokensOf.get db').rows = (tokensOf.get db).rows.map fun t =>
    if boundToken tenantId membershipId t && t.revokedAt.isNone then revokedToken reason now t
    else t
  sessions : (sessionsOf.get db').rows = (sessionsOf.get db).rows.map fun s =>
    if boundSession tenantId membershipId s && s.revokedAt.isNone then revokedSession reason now s
    else s
  frame : db' = {db with
    sessions := db'.sessions
    tokens := db'.tokens}

theorem revokeForMembership_ok {now : Time} {u : Unit}
    (h : revokeForMembership tenantId membershipId reason now db = .ok (u,db')) :
    SessionsRevoked tenantId membershipId reason now db db' := by
  simp only [revokeForMembership,bind_ok,require_ok,zoom_ok,updateRows_ok,pure_ok] at h
  obtain ⟨_,_,⟨-,rfl⟩,_,_,⟨tokens,⟨-,htokens⟩,rfl⟩,_,_,⟨sessions,⟨-,hsessions⟩,rfl⟩,-,rfl⟩ := h
  exact ⟨htokens,hsessions,rfl⟩

theorem tokens_revoked {now : Time} (h : SessionsRevoked tenantId membershipId reason now db db')
    {t : RefreshTokenRecordModel} (ht : t ∈ db'.tokens)
    (hbound : boundToken tenantId membershipId t = true) : t.revokedAt.isSome = true := by
  have hmem : t ∈ (tokensOf.get db').rows := ht
  rw [h.tokens,List.mem_map] at hmem
  obtain ⟨old,-,rfl⟩ := hmem
  by_cases hold : (boundToken tenantId membershipId old && old.revokedAt.isNone) = true
  · rw [if_pos hold]
    rfl
  · rw [if_neg hold] at hbound ⊢
    rw [hbound] at hold
    exact Option.isSome_iff_ne_none.mpr (by simpa using hold)

theorem sessions_revoked {now : Time} (h : SessionsRevoked tenantId membershipId reason now db db')
    {s : AuthSessionModel} (hs : s ∈ db'.sessions)
    (hbound : boundSession tenantId membershipId s = true) : s.revokedAt.isSome = true := by
  have hmem : s ∈ (sessionsOf.get db').rows := hs
  rw [h.sessions,List.mem_map] at hmem
  obtain ⟨old,-,rfl⟩ := hmem
  by_cases hold : (boundSession tenantId membershipId old && old.revokedAt.isNone) = true
  · rw [if_pos hold]
    rfl
  · rw [if_neg hold] at hbound ⊢
    rw [hbound] at hold
    exact Option.isSome_iff_ne_none.mpr (by simpa using hold)

theorem addInvalidation_ok {task : NewAuthorizationCacheInvalidation} {currentTimestamp : Time}
    {u : Unit} (h : addInvalidation task currentTimestamp db = .ok (u,db')) :
    Inserted (invalidationModel task currentTimestamp) db.cacheOutbox db'.cacheOutbox ∧
    db' = cacheOutboxOf.set db'.cacheOutbox db := by
  simp only [addInvalidation,bind_ok,ofExcept_ok,zoom_ok,insertRow_ok] at h
  obtain ⟨checked,_,⟨hchecked,rfl⟩,t,hrows,rfl⟩ := h
  rw [postInit_ok hchecked] at hrows
  exact ⟨hrows,rfl⟩

theorem other_owner (h : 1 < countActiveOwners tenantId d) :
    ∃ m ∈ d.memberships, ∃ a ∈ d.assignments, ∃ r ∈ d.tenantRoles,
      isActiveOwner tenantId (m,a,r) = true ∧ m.id ≠ membershipId := by
  have hnodup := ((nodup_rows d.memberships).product
    ((nodup_rows d.assignments).product (nodup_rows d.tenantRoles))).filter
      (isActiveOwner tenantId)
  rw [countActiveOwners,List.countP_eq_length_filter] at h
  have hmem : ∀ m a r, (m,a,r) ∈ (d.memberships.rows ×ˢ d.assignments.rows ×ˢ
      d.tenantRoles.rows).filter (isActiveOwner tenantId) →
      m ∈ d.memberships ∧ a ∈ d.assignments ∧ r ∈ d.tenantRoles ∧
        isActiveOwner tenantId (m,a,r) = true := by
    intro m a r hrow
    obtain ⟨hprod,hcond⟩ := List.mem_filter.mp hrow
    obtain ⟨hm,hrest⟩ := List.mem_product.mp hprod
    obtain ⟨ha,hr⟩ := List.mem_product.mp hrest
    exact ⟨hm,ha,hr,hcond⟩
  match hrows : (d.memberships.rows ×ˢ d.assignments.rows ×ˢ d.tenantRoles.rows).filter
      (isActiveOwner tenantId) with
  | [] => simp [hrows] at h
  | [_] => simp [hrows] at h
  | (m,a,r)::(n,b,s)::rest =>
    obtain ⟨hm,ha,hr,hfirst⟩ := hmem m a r (by simp [hrows])
    obtain ⟨hn,hb,hs,hsecond⟩ := hmem n b s (by simp [hrows])
    rw [hrows] at hnodup
    have hne : (m,a,r) ≠ (n,b,s) := by
      intro he
      simp [he] at hnodup
    by_cases hmt : m.id = membershipId
    · refine ⟨n,hn,b,hb,s,hs,hsecond,fun hnt => hne ?_⟩
      obtain ⟨ha₁,ha₂,hr₁,hr₂,hm₁,-,-,hr₃⟩ := isActiveOwner_iff.mp hfirst
      obtain ⟨hb₁,hb₂,hs₁,hs₂,hn₁,-,-,hs₃⟩ := isActiveOwner_iff.mp hsecond
      obtain rfl : m = n := eq_of_key hm hn (hmt.trans hnt.symm)
      obtain rfl : r = s := by
        refine eq_of_clash hr hs ?_
        simp [tenantRoles,hr₁,hs₁,ha₁,hb₁,hr₃,hs₃]
      obtain rfl : a = b := by
        refine eq_of_key ha hb ?_
        simp [membershipRoleAssignments,ha₁,hb₁,ha₂,hb₂,← hr₂,← hs₂]
      rfl
    · exact ⟨m,hm,a,ha,r,hr,hfirst,hmt⟩

end LawyerAgent.MembershipRepository
