import LawyerAgent.CacheInvalidation
import LawyerAgent.MemberCursors
import LawyerAgent.Paging.Keyset
import Mathlib.Data.Prod.Lex

/-!
# Pages of a member collection

`list_members` reads the members of an actor's collection in the order of their
creation, one page at a time. The cursor of a page is the position of its last
member, so a member that shares its instant of creation with others is neither
lost nor shown twice.
-/

set_option autoImplicit false

namespace LawyerAgent.MemberPages
open Relational Common Tenancy IdentityTables
open TenantAuthorization TenantWorkflowTables
open Datetimes MemberCursors
open MembershipRepository (sortedIds roleIds)
open Paging

variable (L : Library)

/-- The departments an actor may list; an administrator of a department lists this one. -/
def memberDepartments (snapshot : TenantAuthorizationSnapshot) : TenancyTx (List UUID7) :=
  let departmentIds := snapshot.context.scope.departmentIds
  if snapshot.roleCodes.contains "department_admin" then
    match snapshot.actorMembership.value.departmentId with
    | none => fail (.authorizationDenied "resource_scope_denied")
    | some department =>
      if departmentIds.contains department then pure [department]
      else fail (.authorizationDenied "resource_scope_denied")
  else pure departmentIds

def authorizeMemberCollection (actor : TenantActor) (snapshot : TenantAuthorizationSnapshot)
    (now : Time) : TenancyTx MemberCollectionScope :=
  if snapshot.context.scope.allowTenantWide = true then do
    authorize actor snapshot .membershipRead now
    pure ⟨true,[],rfl⟩
  else do
    let departmentIds ← memberDepartments snapshot
    match departmentIds with
    | [] => fail (.authorizationDenied "resource_scope_denied")
    | first::rest => do
      allow (policyDecision actor snapshot .membershipRead
        {tenantId := snapshot.tenant.id
         state := .active
         accessPaths := [.department]
         departmentId := (sortedIds (first::rest)).head?} now)
      pure ⟨false,first::rest,rfl⟩

def collection (actor : TenantActor) (now : Time) :
    TenancyTx (TenantAuthorizationSnapshot × MemberCollectionScope) := do
  let snapshot ← requireSnapshot actor [] now
  let scope ← authorizeMemberCollection actor snapshot now
  pure (snapshot,scope)

structure MemberPageQuery where
  limit : ℕ
  cursor : Option Text
  range : 1 ≤ limit ∧ limit ≤ 100
  nonempty : cursor ≠ some []

inductive ListFailure where
  | tenancy (failure : TenancyFailure)
  | cursor (failure : CursorFailure)
  | valueError (message : String)

def memberPageQuery (limit : ℕ) (cursor : Option Text) : Except ListFailure MemberPageQuery :=
  if hrange : 1 ≤ limit ∧ limit ≤ 100 then
    if hnonempty : cursor ≠ some [] then .ok ⟨limit,cursor,hrange,hnonempty⟩
    else .error (.cursor invalid)
  else .error (.valueError "member page limit must be between 1 and 100")

structure MemberPageItem where
  membership : Membership
  roleIds : List UUID7
  createdAt : Datetime

structure MemberPage where
  items : List MemberPageItem
  nextCursor : Option Text

variable (createdAt : UUID7 → Datetime)

def inCollection (tenantId : UUID7) (scope : MemberCollectionScope) (m : TenantMembershipModel) :
    Bool :=
  m.tenantId == tenantId &&
    (scope.tenantWide || m.departmentId.any (scope.departmentIds.contains ·))

/-- `ORDER BY created_at, id`; the bytes of an identifier compare as its number. -/
def position (m : TenantMembershipModel) : ℤ ×ₗ ℕ :=
  toLex ((createdAt m.id).instant,m.id.int.toNat)

def cursorPosition (cursor : MemberCursor) : ℤ ×ₗ ℕ :=
  toLex (cursor.createdAt.instant,cursor.membershipId.toNat)

def pageItem (tenantId : UUID7) (d : Identity) (m : TenantMembershipModel) :
    Except String MemberPageItem := do
  let membership ← membershipOf m
  .ok ⟨membership,roleIds tenantId m.id d,createdAt m.id⟩

/-- `list_page`. The column `created_at` of a membership is given by its id. -/
def listPage (tenantId : UUID7) (scope : MemberCollectionScope) (after : Option MemberCursor)
    (limit : ℕ) (d : Identity) : Except String (List MemberPageItem) :=
  let rows := selectRows (inCollection tenantId scope) d.memberships
  ((behind (position createdAt) rows (after.map cursorPosition)).take limit).mapM
    (pageItem createdAt tenantId d)

variable (secret : List UInt8)

def decodeAfter (tenantId : UUID7) (scope : MemberCollectionScope) :
    Option Text → Except CursorFailure (Option MemberCursor)
  | none => .ok none
  | some encoded => do
    let cursor ← decodeCursor L secret tenantId scope encoded
    .ok (some cursor)

def itemCursor (item : MemberPageItem) : MemberCursor :=
  ⟨item.createdAt,item.membership.value.id.int,int_isUUID7 _⟩

def listMembers (actor : TenantActor) (query : MemberPageQuery) (now : Time)
    (db : TenancyDatabase) : Except ListFailure MemberPage := do
  let found ← (outcome (collection actor now) db).mapError .tenancy
  let (snapshot,scope) := found
  let after ← (decodeAfter L secret actor.context.tenantId scope query.cursor).mapError .cursor
  let rows ← (listPage createdAt snapshot.context.tenantId scope after (query.limit+1)
    db.identity).mapError .valueError
  let items := rows.take query.limit
  let nextCursor :=
    if query.limit < rows.length then
      items.getLast?.map fun last =>
        encodeCursor L secret actor.context.tenantId scope (itemCursor last)
    else none
  .ok ⟨items,nextCursor⟩

/-- One request of a client that reads the pages of a limit; `clock` is the time
at which it presents a cursor. -/
def request (actor : TenantActor) (limit : ℕ) (clock : Option Text → Time)
    (db : TenancyDatabase) (cursor : Option Text) : Except ListFailure MemberPage := do
  let query ← memberPageQuery limit cursor
  listMembers L createdAt secret actor query (clock cursor) db

variable {L createdAt secret} {actor : TenantActor} {limit : ℕ} {scope : MemberCollectionScope}
  {db : TenancyDatabase} {tenantId : UUID7}

structure Shown (createdAt : UUID7 → Datetime) (tenantId : UUID7) (d : Identity)
    (item : MemberPageItem) (m : TenantMembershipModel) : Prop where
  membership : item.membership.value = m.toMembershipFields
  roleIds : item.roleIds = roleIds tenantId m.id d
  createdAt : item.createdAt = createdAt m.id

def Shows (createdAt : UUID7 → Datetime) (tenantId : UUID7) (d : Identity) (page : MemberPage)
    (part : List TenantMembershipModel) : Prop :=
  List.Forall₂ (Shown createdAt tenantId d) page.items part

/-- Every stored membership of the tenant is one that its constructor accepts. -/
def Readable (tenantId : UUID7) (d : Identity) : Prop :=
  ∀ m ∈ d.memberships, m.tenantId = tenantId →
    firstError (membershipChecks m.toMembershipFields) = none

theorem pageItem_ok (createdAt : UUID7 → Datetime) (tenantId : UUID7)
    {m : TenantMembershipModel}
    (h : firstError (membershipChecks m.toMembershipFields) = none) (d : Identity) :
    ∃ item, pageItem createdAt tenantId d m = .ok item ∧ Shown createdAt tenantId d item m := by
  have hread : membershipOf m = .ok ⟨m.toMembershipFields,h⟩ := postInit_value ⟨_,h⟩
  refine ⟨⟨⟨m.toMembershipFields,h⟩,roleIds tenantId m.id d,createdAt m.id⟩,?_,⟨rfl,rfl,rfl⟩⟩
  rw [pageItem,hread]
  rfl

theorem pageItems_ok (createdAt : UUID7 → Datetime) (tenantId : UUID7) (d : Identity)
    {models : List TenantMembershipModel}
    (h : ∀ m ∈ models, firstError (membershipChecks m.toMembershipFields) = none) :
    ∃ items, models.mapM (pageItem createdAt tenantId d) = .ok items ∧
      List.Forall₂ (Shown createdAt tenantId d) items models := by
  induction models with
  | nil => exact ⟨[],rfl,.nil⟩
  | cons m models ih =>
    obtain ⟨item,hitem,hshown⟩ := pageItem_ok createdAt tenantId (h m List.mem_cons_self) d
    obtain ⟨items,hitems,hall⟩ := ih fun n hn => h n (List.mem_cons_of_mem _ hn)
    exact ⟨item::items,by rw [List.mapM_cons,hitem,hitems]; rfl,.cons hshown hall⟩

theorem position_inj {m n : TenantMembershipModel}
    (h : position createdAt m = position createdAt n) : m.id = n.id := by
  unfold position at h
  rw [toLex_inj,Prod.mk.injEq] at h
  exact PythonRepr.int_inj (BitVec.eq_of_toNat_eq h.2)

def members (tenantId : UUID7) (scope : MemberCollectionScope) (d : Identity) :
    List TenantMembershipModel :=
  selectRows (inCollection tenantId scope) d.memberships

theorem members_positions (createdAt : UUID7 → Datetime) (tenantId : UUID7)
    (scope : MemberCollectionScope) (d : Identity) :
    ((members tenantId scope d).map (position createdAt)).Nodup := by
  apply List.pairwise_map.mpr
  apply (d.memberships.legal.2.filter _).imp
  intro m n hapart hsame
  exact hapart.1 (position_inj hsame)

theorem item_position {d : Identity} {item : MemberPageItem} {m : TenantMembershipModel}
    (h : Shown createdAt tenantId d item m) :
    cursorPosition (itemCursor item) = position createdAt m := by
  have hid : item.membership.value.id = m.id := congrArg MembershipFields.id h.membership
  change toLex (item.createdAt.instant,item.membership.value.id.int.toNat) = _
  rw [hid,h.createdAt,position]

def Place (L : Library) (createdAt : UUID7 → Datetime) (secret : List UInt8) (tenantId : UUID7)
    (scope : MemberCollectionScope) (d : Identity) (cursor : Option Text)
    (rest : List TenantMembershipModel) : Prop :=
  cursor = none ∧ rest = ordered (position createdAt) (members tenantId scope d) ∨
    ∃ before m c, cursor = some (encodeCursor L secret tenantId scope c) ∧
      cursorPosition c = position createdAt m ∧
      ordered (position createdAt) (members tenantId scope d) = before++m::rest

theorem place_after {cursor : Option Text} {rest : List TenantMembershipModel} {d : Identity}
    (h : Place L createdAt secret tenantId scope d cursor rest) :
    ∃ after, decodeAfter L secret tenantId scope cursor = .ok after ∧
      behind (position createdAt) (members tenantId scope d) (after.map cursorPosition) = rest ∧
      cursor ≠ some [] ∧ ∃ front, ordered (position createdAt) (members tenantId scope d) =
        front++rest := by
  rcases h with ⟨rfl,rfl⟩ | ⟨before,m,c,rfl,hposition,hsplit⟩
  · exact ⟨none,rfl,behind_none _,by simp,[],rfl⟩
  · refine ⟨some c,?_,?_,?_,before++[m],by rw [hsplit,List.append_assoc]; rfl⟩
    · rw [decodeAfter,decodeCursor_encode]
      rfl
    · rw [Option.map_some,hposition]
      exact behind_rest (members_positions createdAt tenantId scope d) hsplit
    · intro hnil
      have hdecode := decodeCursor_encode (L := L) secret tenantId scope c
      rw [Option.some.inj hnil] at hdecode
      cases hdecode

theorem collection_tenant {now : Time} {snapshot : TenantAuthorizationSnapshot}
    (h : outcome (collection actor now) db = .ok (snapshot,scope)) :
    snapshot.context.tenantId = actor.context.tenantId := by
  have h := outcome_ok h
  simp only [collection,bind_ok,pure_ok] at h
  obtain ⟨found,db₁,hsnapshot,scope',db₂,-,hpair,-⟩ := h
  rw [← (Prod.mk.inj hpair).1]
  exact (requireSnapshot_ok hsnapshot).2.tenantId

theorem turn {clock : Option Text → Time} (hlimit : 1 ≤ limit ∧ limit ≤ 100)
    (hreadable : Readable actor.context.tenantId db.identity)
    (hscope : ∀ cursor, ∃ snapshot,
      outcome (collection actor (clock cursor)) db = .ok (snapshot,scope))
    (cursor : Option Text) (rest : List TenantMembershipModel)
    (hplace : Place L createdAt secret actor.context.tenantId scope db.identity cursor rest) :
    Turn (request L createdAt secret actor limit clock db) MemberPage.nextCursor
      (Place L createdAt secret actor.context.tenantId scope db.identity)
      (Shows createdAt actor.context.tenantId db.identity) none cursor rest := by
  obtain ⟨after,hafter,hbehind,hnonempty,front,hfront⟩ := place_after hplace
  obtain ⟨snapshot,hcollection⟩ := hscope cursor
  have htenant := collection_tenant hcollection
  have hmembers : ∀ m ∈ rest.take (limit+1),
      firstError (membershipChecks m.toMembershipFields) = none := by
    intro m hm
    have hordered : m ∈ ordered (position createdAt)
        (members actor.context.tenantId scope db.identity) := by
      rw [hfront]
      exact List.mem_append_right _ (List.mem_of_mem_take hm)
    obtain ⟨hmem,hin⟩ := mem_selectRows.mp ((ordered_perm _).mem_iff.mp hordered)
    exact hreadable m hmem (eq_of_beq (Bool.and_eq_true_iff.mp hin).1)
  obtain ⟨items,hitems,hshown⟩ :=
    pageItems_ok createdAt actor.context.tenantId db.identity hmembers
  have hlist : listPage createdAt actor.context.tenantId scope after (limit+1) db.identity =
      .ok items := by
    unfold listPage
    dsimp only
    rw [show behind (position createdAt) (selectRows (inCollection actor.context.tenantId scope)
      db.identity.memberships) (after.map cursorPosition) = rest from hbehind]
    exact hitems
  have hpage : request L createdAt secret actor limit clock db cursor =
      .ok ⟨items.take limit,if limit < items.length then
        (items.take limit).getLast?.map fun last =>
          encodeCursor L secret actor.context.tenantId scope (itemCursor last) else none⟩ := by
    unfold request memberPageQuery
    rw [dif_pos hlimit,dif_pos hnonempty]
    change listMembers L createdAt secret actor _ (clock cursor) db = _
    unfold listMembers
    rw [hcollection]
    simp only [Except.mapError,bind,Except.bind,hafter,htenant,hlist]
  have hlength : items.length = (rest.take (limit+1)).length := hshown.length_eq
  have htaken := List.forall₂_take limit hshown
  by_cases hmore : limit < items.length
  · rw [if_pos hmore] at hpage
    obtain ⟨part,m,left,hsplit,htake,hleft⟩ := full_page hlimit.1 (hlength ▸ hmore)
    rw [htake] at htaken
    obtain ⟨last,hlast,hitem⟩ := shows_last htaken
    rw [hlast,Option.map_some] at hpage
    have hnext : Place L createdAt secret actor.context.tenantId scope db.identity
        (some (encodeCursor L secret actor.context.tenantId scope (itemCursor last))) left := by
      refine .inr ⟨front++part,m,itemCursor last,rfl,item_position hitem,?_⟩
      rw [hfront,hsplit]
      simp
    rw [hsplit]
    exact .more hpage rfl (by simp) htaken hnext
  · rw [if_neg hmore] at hpage
    rw [last_page (hlength ▸ Nat.le_of_not_lt hmore)] at htaken
    exact .last hpage rfl htaken rfl

theorem shown_flatten {d : Identity} {pages : List MemberPage}
    {parts : List (List TenantMembershipModel)}
    (h : List.Forall₂ (Shows createdAt tenantId d) pages parts) :
    List.Forall₂ (Shown createdAt tenantId d) (pages.flatMap MemberPage.items) parts.flatten := by
  induction h with
  | nil => exact .nil
  | cons hpage _ ih => exact List.rel_append hpage ih

/-- Following the cursors from the start shows each member of the collection once,
in the order of creation; a cursor is the position it was issued for, and it is
rejected for another tenant or another scope. -/
theorem members_paged (L : Library) (secret : List UInt8) (createdAt : UUID7 → Datetime)
    (actor : TenantActor) (limit : ℕ) (hlimit : 1 ≤ limit ∧ limit ≤ 100) (db : TenancyDatabase)
    (hreadable : Readable actor.context.tenantId db.identity) (clock : Option Text → Time)
    (scope : MemberCollectionScope)
    (hscope : ∀ cursor, ∃ snapshot,
      outcome (collection actor (clock cursor)) db = .ok (snapshot,scope)) :
    (∃ pages rows,
      Follows (request L createdAt secret actor limit clock db) MemberPage.nextCursor none pages
        none ∧
      rows.Perm (selectRows (inCollection actor.context.tenantId scope) db.identity.memberships) ∧
      rows.Pairwise (fun m n => position createdAt m < position createdAt n) ∧
      List.Forall₂ (Shown createdAt actor.context.tenantId db.identity)
        (pages.flatMap MemberPage.items) rows) ∧
    (∀ tenantId scope cursor,
      decodeCursor L secret tenantId scope (encodeCursor L secret tenantId scope cursor) =
        .ok cursor) ∧
    ∀ tenantId otherId scope other encoded cursor,
      decodeCursor L secret tenantId scope encoded = .ok cursor →
      ¬(tenantId = otherId ∧ SameScope scope other) →
      (L.sha256 (CanonicalJson.encode ("member-collection-scope:v1:".toList++
          scopeMaterial scope)) =
        L.sha256 (CanonicalJson.encode ("member-collection-scope:v1:".toList++
          scopeMaterial other)) → scopeMaterial scope = scopeMaterial other) →
      ∃ failure, decodeCursor L secret otherId other encoded = .error failure := by
  refine ⟨?_,decodeCursor_encode secret,fun _ _ _ _ _ _ => decodeCursor_other⟩
  have hplace : Place L createdAt secret actor.context.tenantId scope db.identity none
      (ordered (position createdAt) (members actor.context.tenantId scope db.identity)) :=
    .inl ⟨rfl,rfl⟩
  obtain ⟨pages,parts,hfollows,hshows,hflat⟩ :=
    follow_all (turn hlimit hreadable hscope) hplace
  have hshown := shown_flatten hshows
  rw [hflat] at hshown
  exact ⟨pages,_,hfollows,ordered_perm _,ordered_strict (members_positions ..),hshown⟩

open CacheInvalidation (staffed signedInOwner sampleTenant)

/-- The tenant of two members whose owner may read the memberships. -/
def listed : TenancyDatabase :=
  {staffed with
    rollout := {staffed.rollout with
      identity := {staffed.identity with
        permissions := .single ⟨⟨0,5,0⟩,"membership.read",.active⟩ rfl}}}

def sampleLibrary : Library where
  hmac _ message := BitVec.ofNat 256 message.length
  sha256 bytes := BitVec.ofNat 256 bytes.length
  loads _ := none
  fromisoformat _ := none
  uuid _ := none

theorem zero_first : Datetimes.minDatetime ≤ 0 := by decide

theorem zero_last : 0 < Datetimes.maxDatetime := by decide

def sampleCreated (_ : UUID7) : Datetime := ⟨0,zero_first,zero_last⟩

theorem sample_scope : ∃ snapshot,
    outcome (collection signedInOwner 1) listed = .ok (snapshot,⟨true,[],rfl⟩) := by
  have hwide : (match outcome (collection signedInOwner 1) listed with
      | .ok found => found.2.tenantWide
      | .error _ => false) = true := by decide
  split at hwide
  · next found hfound =>
    obtain ⟨snapshot,wide,ids,hwell⟩ := found
    cases hwide
    cases List.isEmpty_iff.mp hwell.symm
    exact ⟨snapshot,hfound⟩
  · cases hwide

theorem members_paged_sample : ∃ pages rows,
    Follows (request sampleLibrary sampleCreated (List.replicate 32 7) signedInOwner 1 (fun _ => 1)
      listed) MemberPage.nextCursor none pages none ∧
    rows.Perm (selectRows (inCollection sampleTenant ⟨true,[],rfl⟩) listed.identity.memberships) ∧
    rows.Pairwise (fun m n => position sampleCreated m < position sampleCreated n) ∧
    List.Forall₂ (Shown sampleCreated sampleTenant listed.identity)
      (pages.flatMap MemberPage.items) rows :=
  (members_paged sampleLibrary (List.replicate 32 7) sampleCreated signedInOwner 1 (by decide)
    listed
    (fun m hm _ => by
      have hall : ∀ m ∈ listed.identity.memberships.rows,
          firstError (membershipChecks m.toMembershipFields) = none := by decide
      exact hall m hm)
    (fun _ => 1) ⟨true,[],rfl⟩ fun _ => sample_scope).1

end LawyerAgent.MemberPages
