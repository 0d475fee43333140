import LawyerAgent.MatterDocuments
import LawyerAgent.Relational.RowSessions
import LawyerAgent.Tenancy

/-!
# Changes of matters and their parties

The four operations on a matter lock the row they read and update it under the
version their caller has read. `update_party` reads its row without a lock and
writes the version it has read plus one, together with the columns that differ
from the row it has read, so it keeps its promise only where the row has not
changed since.
-/

set_option autoImplicit false

namespace LawyerAgent.MatterChanges
open Relational Common PythonText MatterDocuments
open Tenancy (MembershipFields)

inductive MatterKind where
  | contractReview
  | litigation
  | legalAdvice
  | compliance
  | other
deriving DecidableEq

inductive MatterStatus where
  | «open»
  | active
  | closed
  | archived
deriving DecidableEq

structure Matter extends TenantMatter where
  title : String
  kind : MatterKind
  status : MatterStatus
  description : Option String
  createdByUserId : UUID7
  createdByMembershipId : UUID7
  ownerMembershipId : Option UUID7
  version : ℕ

structure MatterParty where
  id : UUID7
  tenantId : UUID7
  matterId : UUID7
  displayName : String
  kind : String
  version : ℕ

inductive MatterError where
  | valueError (message : String)
  | statusTransitionInvalid (source target : MatterStatus)
deriving DecidableEq

def matterStatusTransitions : List (MatterStatus × MatterStatus) :=
  [(.open,.active),(.open,.closed),(.active,.closed),(.closed,.archived)]

def requireMatterStatusTransition (source target : MatterStatus) : Except MatterError Unit :=
  if (source,target) ∈ matterStatusTransitions then .ok ()
  else .error (.statusTransitionInvalid source target)

def matterOwnerAssignable (member : MembershipFields) : Bool :=
  (member.memberType = .owner || member.memberType = .internal) && member.status = .active

def titleChecks (title : String) : List (Bool × String) :=
  [(stripString title ≠ "","matter title must be non-empty text"),
   ((strip title.toList).length ≤ 512,"matter title is too long")]

def descriptionChecks (description : String) : List (Bool × String) :=
  [((strip description.toList).length ≤ 4000,"matter description is too long")]

def metadataChecks (title description : Option String) : List (Bool × String) :=
  (title.map titleChecks).getD []++(description.map descriptionChecks).getD []

/-- `member` is the membership an assignment finds in the tenant under the given id. -/
inductive MatterUpdate where
  | transition (targetStatus : MatterStatus)
  | metadata (title description : Option String)
  | assignOwner (ownerMembershipId : UUID7) (member : Option MembershipFields)
  | clearOwner

structure MatterCall where
  expectedVersion : ℕ
  update : MatterUpdate

def requireFirst (checks : List (Bool × String)) : Except MatterError Unit :=
  match checks.find? fun c => !c.1 with
  | none => .ok ()
  | some c => .error (.valueError c.2)

/-- What an operation raises before it reads the row. -/
def checkCall (q : MatterCall) : Except MatterError Unit := do
  requireFirst [(0 < q.expectedVersion,"matter expected_version must be a positive integer")]
  match q.update with
  | .metadata title description => requireFirst (metadataChecks title description)
  | _ => .ok ()

/-- What an operation raises on the row it has read. -/
def checkRow (update : MatterUpdate) (read : Matter) : Except MatterError Unit :=
  match update with
  | .transition targetStatus => requireMatterStatusTransition read.status targetStatus
  | .assignOwner _ member => requireFirst [(member.any matterOwnerAssignable,
      "owner membership is not an active own-staff member")]
  | _ => .ok ()

def storedDescription (description : String) : Option String :=
  if stripString description = "" then none else some (stripString description)

def updateValues (update : MatterUpdate) (found : Matter) : Matter :=
  match update with
  | .transition targetStatus => {found with status := targetStatus}
  | .metadata title description =>
    {found with
      title := (title.map stripString).getD found.title
      description := (description.map storedDescription).getD found.description}
  | .assignOwner ownerMembershipId _ => {found with ownerMembershipId := some ownerMembershipId}
  | .clearOwner => {found with ownerMembershipId := none}

def guardHolds (q : MatterCall) (read found : Matter) : Bool :=
  match q.update with
  | .transition _ => found.status = read.status && found.version = q.expectedVersion
  | _ => found.version = q.expectedVersion

/-- `none` where the statement changes no row. -/
def updateMatter (q : MatterCall) (read found : Matter) : Except MatterError (Option Matter) := do
  checkCall q
  checkRow q.update read
  pure (if guardHolds q read found then
    some {updateValues q.update found with version := found.version+1} else none)

def matterTransaction (q : MatterCall) : RowTransaction Matter where
  locking := true
  write read found := (updateMatter q read found).toOption.join

structure PartyCall where
  displayName : Option String
  kind : Option String

def partyChecks (q : PartyCall) : List (Bool × String) :=
  [(q.displayName.all (stripString · ≠ ""),"party display name must be non-empty text"),
   (q.kind.all (stripString · ≠ ""),"party kind must be non-empty text")]

/-- The column of an attribute is written if its value has changed. -/
def flushed (read found : String) (value : Option String) : String :=
  match value with
  | none => found
  | some value => if value = read then found else value

def updateParty (q : PartyCall) (read found : MatterParty) : Except MatterError MatterParty := do
  requireFirst (partyChecks q)
  pure {found with
    displayName := flushed read.displayName found.displayName q.displayName
    kind := flushed read.kind found.kind q.kind
    version := read.version+1}

def partyTransaction (q : PartyCall) : RowTransaction MatterParty where
  locking := false
  write read found := (updateParty q read found).toOption

structure MatterWorld where
  matter : RowWorld MatterCall Matter
  parties : UUID7 → RowWorld PartyCall MatterParty

inductive MatterOp where
  | matter (op : RowOp MatterCall)
  | party (id : UUID7) (op : RowOp PartyCall)

def MatterWorld.start (matter : Matter) (parties : UUID7 → MatterParty) : MatterWorld where
  matter := RowWorld.start matter
  parties id := RowWorld.start (parties id)

def matterStep : MatterOp → MatterWorld → MatterWorld
  | .matter op, w => {w with matter := rowStep matterTransaction op w.matter}
  | .party id op, w =>
    let party := rowStep partyTransaction op (w.parties id)
    {w with parties := Function.update w.parties id party}

/-- A party is written only where it has not changed since it was read. -/
def PartyFresh : MatterOp → MatterWorld → Prop
  | .matter _, _ => True
  | .party id op, w => WritesMeet partyTransaction fresh op (w.parties id)

instance (op : MatterOp) (w : MatterWorld) : Decidable (PartyFresh op w) :=
  match op with
  | .matter _ => .isTrue trivial
  | .party id op =>
    inferInstanceAs (Decidable (WritesMeet partyTransaction fresh op (w.parties id)))

def MatterOp.onMatter : MatterOp → Option (RowOp MatterCall)
  | .matter op => some op
  | .party _ _ => none

def MatterOp.onParty (partyId : UUID7) : MatterOp → Option (RowOp PartyCall)
  | .matter _ => none
  | .party id op => if id = partyId then some op else none

theorem run_matter (ops : List MatterOp) (w : MatterWorld) :
    (run matterStep ops w).matter =
      run (rowStep matterTransaction) (ops.filterMap MatterOp.onMatter) w.matter := by
  induction ops generalizing w with
  | nil => rfl
  | cons op ops ih =>
    cases op with
    | matter op => exact ih _
    | party _ op => exact ih _

theorem run_party (id : UUID7) (ops : List MatterOp) (w : MatterWorld) :
    (run matterStep ops w).parties id =
      run (rowStep partyTransaction) (ops.filterMap (MatterOp.onParty id)) (w.parties id) := by
  induction ops generalizing w with
  | nil => rfl
  | cons op ops ih =>
    rw [run_cons,ih]
    cases op with
    | matter op => rfl
    | party id' op =>
      by_cases h : id' = id
      · subst h
        simp [MatterOp.onParty,matterStep]
      · simp [MatterOp.onParty,matterStep,h,Function.update_of_ne (Ne.symm h)]

theorem along_party (id : UUID7) (ops : List MatterOp) (w : MatterWorld)
    (h : Along matterStep PartyFresh ops w) :
    Along (rowStep partyTransaction) (WritesMeet partyTransaction fresh)
      (ops.filterMap (MatterOp.onParty id)) (w.parties id) := by
  induction ops generalizing w with
  | nil => trivial
  | cons op ops ih =>
    have hrest := ih _ h.2
    cases op with
    | matter op => exact hrest
    | party id' op =>
      by_cases heq : id' = id
      · subst heq
        simp only [MatterOp.onParty,List.filterMap_cons,if_true]
        refine ⟨h.1,?_⟩
        simpa [matterStep] using hrest
      · simp only [MatterOp.onParty,List.filterMap_cons,heq,if_false]
        simpa [matterStep,Function.update_of_ne (Ne.symm heq)] using hrest

variable {q : MatterCall} {read found row first : Matter} {w : RowWorld MatterCall Matter}

def updatedRow (q : MatterCall) (found : Matter) : Matter :=
  {updateValues q.update found with version := found.version+1}

theorem updateMatter_run (hcall : checkCall q = .ok ()) (hrow : checkRow q.update read = .ok ()) :
    (matterTransaction q).write read found =
      if guardHolds q read found then some (updatedRow q found) else none := by
  simp only [matterTransaction,updateMatter,hcall,hrow,bind,Except.bind,pure,Except.pure]
  rfl

theorem updateMatter_some (h : (matterTransaction q).write read found = some row) :
    checkCall q = .ok () ∧ checkRow q.update read = .ok () ∧ guardHolds q read found = true ∧
      row = updatedRow q found := by
  cases hcall : checkCall q with
  | error e =>
    simp [matterTransaction,updateMatter,hcall,bind,Except.bind,Except.toOption] at h
  | ok _ =>
    cases hrow : checkRow q.update read with
    | error e =>
      simp [matterTransaction,updateMatter,hcall,hrow,bind,Except.bind,Except.toOption] at h
    | ok _ =>
      rw [updateMatter_run hcall hrow] at h
      split_ifs at h with hguard
      exact ⟨rfl,rfl,hguard,(Option.some.inj h).symm⟩

theorem guardHolds_version (h : guardHolds q read found = true) :
    found.version = q.expectedVersion := by
  cases hq : q.update with
  | transition target =>
    simp only [guardHolds,hq,Bool.and_eq_true,decide_eq_true_eq] at h
    exact h.2
  | metadata title description =>
    simpa only [guardHolds,hq,decide_eq_true_eq] using h
  | assignOwner owner member =>
    simpa only [guardHolds,hq,decide_eq_true_eq] using h
  | clearOwner =>
    simpa only [guardHolds,hq,decide_eq_true_eq] using h

theorem guardHolds_same (h : found.version = q.expectedVersion) :
    guardHolds q found found = true := by
  cases hq : q.update with
  | transition target => simp [guardHolds,hq,h]
  | metadata title description => simp [guardHolds,hq,h]
  | assignOwner owner member => simp [guardHolds,hq,h]
  | clearOwner => simp [guardHolds,hq,h]

theorem updated_status (h : checkRow q.update found = .ok ()) :
    (updatedRow q found).status = found.status ∨
      (found.status,(updatedRow q found).status) ∈ matterStatusTransitions := by
  cases hq : q.update with
  | transition target =>
    right
    simp only [hq,checkRow,requireMatterStatusTransition] at h
    split_ifs at h with hmem
    simpa only [updatedRow,hq,updateValues] using hmem
  | metadata title description =>
    left
    simp only [updatedRow,hq,updateValues]
  | assignOwner owner member =>
    left
    simp only [updatedRow,hq,updateValues]
  | clearOwner =>
    left
    simp only [updatedRow,hq,updateValues]

theorem updateParty_some {q : PartyCall} {read found row : MatterParty}
    (h : (partyTransaction q).write read found = some row) : row.version = read.version+1 := by
  cases hchecks : requireFirst (partyChecks q) with
  | error e =>
    simp [partyTransaction,updateParty,hchecks,bind,Except.bind,Except.toOption] at h
  | ok _ =>
    simp only [partyTransaction,updateParty,hchecks,bind,Except.bind,pure,Except.pure,
      Except.toOption,Option.some.injEq] at h
    rw [← h]

/-- What the calls on a matter have left, and what a call can still do that has locked it. -/
structure MatterUpdated (first : Matter) (w : RowWorld MatterCall Matter) : Prop where
  lossless : Lossless Matter.version first w
  expected : ∀ c ∈ w.changes, c.call.expectedVersion = c.before.version
  /-- The row a caller has read the version of is the one its change replaces. -/
  held : ∀ c ∈ w.changes, ∀ row ∈ rowHistory first w.changes,
    row.version = c.call.expectedVersion → row = c.before
  once : ∀ n, first.version ≤ n → n < w.row.version → ∃! i : ℕ, ∃ c : RowChange MatterCall Matter,
    w.changes[i]? = some c ∧ c.call.expectedVersion = n
  moves : ∀ c ∈ w.changes, c.after.status = c.before.status ∨
    (c.before.status,c.after.status) ∈ matterStatusTransitions
  loses : ∀ (i : ℕ) q seen read, w.sessions[i]? = some ⟨q,.read seen read⟩ →
    q.expectedVersion ≠ w.row.version →
    rowStep matterTransaction (.write i) w = w.advance i q .ended
  wins : ∀ (i : ℕ) q seen read, w.sessions[i]? = some ⟨q,.read seen read⟩ →
    q.expectedVersion = w.row.version → checkCall q = .ok () →
    checkRow q.update w.row = .ok () →
    run (rowStep matterTransaction) [.write i,.commit i] w =
      w.change i q seen w.row (updatedRow q w.row)

theorem matter_lossless (hs : RowSound matterTransaction first w) (hm : RowMeets fresh w) :
    Lossless Matter.version first w := by
  apply fresh_lossless hs hm
  intro q read row hwrite
  obtain ⟨-,-,-,rfl⟩ := updateMatter_some hwrite
  rfl

theorem matter_updated (hs : RowSound matterTransaction first w) (hm : RowMeets fresh w) :
    MatterUpdated first w := by
  have hlossless := matter_lossless hs hm
  have hwrite : ∀ c ∈ w.changes, checkRow c.call.update c.before = .ok () ∧
      c.before.version = c.call.expectedVersion ∧ c.after = updatedRow c.call c.before := by
    intro c hc
    obtain ⟨k,hk⟩ := List.getElem?_of_mem hc
    have hchange := (hs.changes k c hk).1
    rw [(hlossless.current k c hk).2] at hchange
    obtain ⟨-,hrow,hguard,hafter⟩ := updateMatter_some hchange
    exact ⟨hrow,guardHolds_version hguard,hafter⟩
  refine ⟨hlossless,?_,?_,?_,?_,?_,?_⟩
  · intro c hc
    exact (hwrite c hc).2.1.symm
  · intro c hc row hrow hversion
    rw [← (hwrite c hc).2.1] at hversion
    exact history_row hs.chained hlossless.raised hrow (before_history hs.chained hc) hversion
  · intro n hfirst hlast
    obtain ⟨i,⟨c,hi,hc⟩,hunique⟩ := chained_passed hs.chained hlossless.raised hfirst hlast
    refine ⟨i,⟨c,hi,?_⟩,?_⟩
    · rw [← (hwrite c (List.mem_of_getElem? hi)).2.1,hc]
    · intro j hj
      obtain ⟨d,hd,hn⟩ := hj
      apply hunique
      exact ⟨d,hd,by rw [(hwrite d (List.mem_of_getElem? hd)).2.1,hn]⟩
  · intro c hc
    obtain ⟨hrow,-,hafter⟩ := hwrite c hc
    rw [hafter]
    exact updated_status hrow
  · intro i q seen read held hne
    rw [locking_write hs rfl held,writePhase]
    cases hnone : (matterTransaction q).write read w.row with
    | none => rfl
    | some row =>
      obtain ⟨-,-,hguard,-⟩ := updateMatter_some hnone
      exact absurd (guardHolds_version hguard).symm hne
  · intro i q seen read held hversion hcall hrow
    apply locking_commits hs rfl held
    rw [updateMatter_run hcall hrow,if_pos (guardHolds_same hversion.symm)]

/-- In a run that writes no party on a stale read, no change of the matter or of a party is
lost. -/
theorem updates_kept (matter : Matter) (parties : UUID7 → MatterParty) (ops : List MatterOp)
    (hg : Along matterStep PartyFresh ops (MatterWorld.start matter parties)) :
    MatterUpdated matter (run matterStep ops (MatterWorld.start matter parties)).matter ∧
    ∀ id, Lossless MatterParty.version (parties id)
      ((run matterStep ops (MatterWorld.start matter parties)).parties id) := by
  constructor
  · rw [run_matter]
    apply matter_updated (run_rowSound _ matter)
    apply run_meets
    exact along_of_invariant step_rowSound (fun _ _ h => locking_fresh h fun _ => rfl) _ _
      (start_sound _ matter)
  · intro id
    rw [run_party]
    apply fresh_lossless (run_rowSound _ (parties id))
    · exact run_meets _ (parties id) (along_party id ops _ hg)
    · intro q read row hwrite
      exact updateParty_some hwrite

def sampleMatter : Matter where
  id := ⟨0,0,1⟩
  tenantId := ⟨0,0,2⟩
  title := "Lease"
  kind := .contractReview
  status := .open
  description := none
  createdByUserId := ⟨0,0,3⟩
  createdByMembershipId := ⟨0,0,4⟩
  ownerMembershipId := none
  version := 1

def sampleParty (id : UUID7) : MatterParty where
  id := id
  tenantId := ⟨0,0,2⟩
  matterId := ⟨0,0,1⟩
  displayName := "Ada"
  kind := "tenant"
  version := 1

def partyId : UUID7 := ⟨0,0,5⟩

/-- An activation, then a change of a party and a further one that has read it. -/
def orderlyOps : List MatterOp :=
  [.matter (.begin ⟨1,.transition .active⟩),.matter (.read 0),.matter (.write 0),
   .matter (.commit 0),.party partyId (.begin ⟨some "Bea",none⟩),.party partyId (.read 0),
   .party partyId (.write 0),.party partyId (.commit 0),
   .party partyId (.begin ⟨none,some "landlord"⟩),.party partyId (.read 1),
   .party partyId (.write 1),.party partyId (.commit 1)]

theorem orderly_kept :
    MatterUpdated sampleMatter
      (run matterStep orderlyOps (MatterWorld.start sampleMatter sampleParty)).matter ∧
    ∀ id, Lossless MatterParty.version (sampleParty id)
      ((run matterStep orderlyOps (MatterWorld.start sampleMatter sampleParty)).parties id) :=
  updates_kept sampleMatter sampleParty orderlyOps (by decide)

/-- Both calls read version 1 of the party before either has written it. -/
def racingOps : List MatterOp :=
  [.party partyId (.begin ⟨some "Bea",none⟩),.party partyId (.begin ⟨some "Cyd",none⟩),
   .party partyId (.read 0),.party partyId (.read 1),.party partyId (.write 0),
   .party partyId (.commit 0),.party partyId (.write 1),.party partyId (.commit 1)]

/-- Both changes carry version 2, and the second one overwrites the name of the first. -/
theorem racing_lost :
    ((run matterStep racingOps (MatterWorld.start sampleMatter sampleParty)).parties
      partyId).changes.map (fun c => (c.after.displayName,c.after.version)) =
        [("Bea",2),("Cyd",2)] ∧
    ¬ Lossless MatterParty.version (sampleParty partyId)
      ((run matterStep racingOps (MatterWorld.start sampleMatter sampleParty)).parties
        partyId) := by
  constructor
  · decide
  · intro h
    have hversions : (((run matterStep racingOps
        (MatterWorld.start sampleMatter sampleParty)).parties partyId).changes.map
          fun c => c.after.version) = [2,2] := by decide
    have hdistinct := h.distinct
    rw [hversions] at hdistinct
    revert hdistinct
    decide

end LawyerAgent.MatterChanges
