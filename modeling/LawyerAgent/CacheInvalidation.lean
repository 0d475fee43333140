import LawyerAgent.AuthorizationCacheOutbox
import LawyerAgent.Relational.Run

/-!
# Cache invalidations after a mutation

The call that changed a member and any number of dispatchers settle the same
outbox rows. Each of them is a holder that asks the cache first and writes to
the outbox in a later transaction; between any two of its actions anything
else may happen.
-/

set_option autoImplicit false

namespace LawyerAgent.CacheInvalidation
open Relational Common IdentityTables TenantWorkflowTables
open MembershipRepository MembershipMutation
open AuthorizationCacheOutbox
open TenantAuthorization hiding membershipsOf
open SessionTables hiding sessionsOf tokensOf

/-- What a cache entry is kept under. -/
structure CachedAuthorization where
  tenantId : UUID7
  membershipId : UUID7
  authzVersion : ℕ
deriving DecidableEq

def rowAuthorization (o : AuthorizationCacheInvalidationOutboxModel) : CachedAuthorization :=
  ⟨o.tenantId,o.membershipId,o.authzVersion⟩

def ownAuthorization (t : CacheTask) : CachedAuthorization :=
  ⟨t.tenantId,t.membershipId,t.authzVersion⟩

def taskAuthorization (t : AuthorizationCacheInvalidationTask) : CachedAuthorization :=
  ⟨t.tenantId,t.membershipId,t.authzVersion⟩

/-- A call between its commit and its return, or a `run_once` after its claim,
with the tasks it has left and the cache's answer on the first of them. -/
inductive Holder where
  | immediate (task : CacheTask) (invalidated : Bool)
  | dispatch (now : Time) (tasks : List AuthorizationCacheInvalidationTask)
      (answer : Option Bool)
  | ended

/-- `invalidated` lists the invalidations that have succeeded. -/
structure CacheWorld where
  db : TenancyDatabase
  invalidated : List CachedAuthorization
  holders : List Holder

inductive CacheOp where
  | mutate (q : MutationCall) (c : MemberMutation)
  | elsewhere (others : TenancyDatabase)
  | claim (dispatcher : Checked dispatcherChecks) (now : Time) (limit : ℕ)
      (locked : UUID7 → Bool) (newToken : UUID7 → UUID7)
  | answer (holder : ℕ) (succeeds : Bool)
  | finish (holder : ℕ) (now : Time)
  | crash (holder : ℕ)

def Holder.awaiting : Holder → Option CachedAuthorization
  | .immediate task false => some (ownAuthorization task)
  | .dispatch _ (t::_) none => some (taskAuthorization t)
  | _ => none

/-- A call whose invalidation fails leaves the row to the dispatchers. -/
def Holder.answered (succeeds : Bool) : Holder → Holder
  | .immediate task false => if succeeds then .immediate task true else .ended
  | .dispatch now tasks none => .dispatch now tasks (some succeeds)
  | h => h

/-- The next transaction of a holder, and what the holder is after it. -/
def Holder.settling (now : Time) : Holder → Option (OutboxTx Bool × Holder)
  | .immediate task true => some (markImmediateCompleted task.taskId now,.ended)
  | .dispatch start (t::tasks) (some invalidated) =>
    some (settleTask start t invalidated,.dispatch start tasks none)
  | _ => none

def started : CommittedMutation → List Holder
  | ⟨_,none⟩ => []
  | ⟨_,some task⟩ => [.immediate task false]

def mutateStep (q : MutationCall) (c : MemberMutation) (w : CacheWorld) : CacheWorld :=
  match mutateMember q c w.db with
  | .error _ => w
  | .ok (committed,db) => {w with
      db := db
      holders := w.holders++started committed}

def claimStep (b : ClaimBatch) (w : CacheWorld) : CacheWorld :=
  match zoom cacheOutboxOf (claimBatch b) w.db with
  | .error _ => w
  | .ok (tasks,db) => {w with
      db := db
      holders := w.holders++[.dispatch b.now tasks none]}

def answerStep (i : ℕ) (succeeds : Bool) (w : CacheWorld) : CacheWorld :=
  match w.holders[i]? with
  | none => w
  | some h =>
    match h.awaiting with
    | none => w
    | some key => {w with
        invalidated := if succeeds then key::w.invalidated else w.invalidated
        holders := w.holders.set i (h.answered succeeds)}

/-- A transaction that fails ends its holder. -/
def finishStep (i : ℕ) (now : Time) (w : CacheWorld) : CacheWorld :=
  match w.holders[i]?.bind (Holder.settling now) with
  | none => w
  | some (x,next) =>
    match zoom cacheOutboxOf x w.db with
    | .error _ => {w with holders := w.holders.set i .ended}
    | .ok (_,db) => {w with
        db := db
        holders := w.holders.set i next}

def cacheStep : CacheOp → CacheWorld → CacheWorld
  | .mutate q c, w => mutateStep q c w
  | .elsewhere others, w => {w with db := {others with cacheOutbox := w.db.cacheOutbox}}
  | .claim dispatcher now limit locked newToken, w =>
    claimStep (runClaim dispatcher now limit locked newToken) w
  | .answer i succeeds, w => answerStep i succeeds w
  | .finish i now, w => finishStep i now w
  | .crash i, w => {w with holders := w.holders.set i .ended}

/-- A row keeps its authorization; it is completed where `D` says so and
comes under a token where `K` does. -/
structure RowMove (D : CachedAuthorization → Prop) (K : UUID7 → Prop)
    (o o' : AuthorizationCacheInvalidationOutboxModel) : Prop where
  authorization : rowAuthorization o' = rowAuthorization o
  completed : o'.status = .completed → o.status = .completed ∨ D (rowAuthorization o)
  token : ∀ k, o'.claimToken = some k →
    o'.status = o.status ∧ o.claimToken = some k ∨ K k

structure RowNew (o : AuthorizationCacheInvalidationOutboxModel) : Prop where
  status : o.status = .pending
  token : o.claimToken = none

variable {D : CachedAuthorization → Prop} {K : UUID7 → Prop}

theorem rowMove_refl (o : AuthorizationCacheInvalidationOutboxModel) : RowMove D K o o :=
  ⟨rfl,Or.inl,fun _ h => Or.inl ⟨rfl,h⟩⟩

def Completes (D : CachedAuthorization → Prop) (t : CacheOutbox) : Holder → Prop
  | .immediate task true => ∀ o ∈ t, o.id = task.taskId → D (rowAuthorization o)
  | .dispatch _ (x::_) (some true) => ∀ o ∈ t, o.id = x.id → D (rowAuthorization o)
  | _ => True

variable {now : Time} {o : AuthorizationCacheInvalidationOutboxModel} {t t' : CacheOutbox}
  {h : Holder} {key : CachedAuthorization} {tasks : List AuthorizationCacheInvalidationTask}
  {committed : CommittedMutation} {invalidated : List CachedAuthorization}
  {x : AuthorizationCacheInvalidationTask}

theorem completedRow_moves (h : D (rowAuthorization o)) : RowMove D K o (completedRow now o) :=
  ⟨rfl,fun _ => Or.inr h,fun _ hk => by cases hk⟩

theorem releasedRow_moves {availableAt now : Time} {errorCode : String} :
    RowMove D K o (releasedRow availableAt errorCode now o) :=
  ⟨rfl,(fun hs => by cases hs),fun _ hk => by cases hk⟩

theorem evolves_row {e : TenancyFailure} {p : AuthorizationCacheInvalidationOutboxModel → Bool}
    {f : AuthorizationCacheInvalidationOutboxModel → AuthorizationCacheInvalidationOutboxModel}
    {n : ℕ} (h : updateRows e p f t = .ok (n,t')) (id : UUID7) (hp : ∀ o, p o = true → o.id = id)
    (hkey : ∀ o, (f o).id = o.id) (hf : ∀ o ∈ t, p o = true → RowMove D K o (f o)) :
    Evolves (RowMove D K) RowNew t t' := by
  rcases updateRows_keyed h id hp hkey with ⟨-,rfl,-⟩ | ⟨-,o,hpo,hreplaced⟩
  · exact evolves_refl rowMove_refl _
  · exact evolves_replaced rowMove_refl (hf o hreplaced.mem hpo) hreplaced

theorem heldUnder_id {taskId token : UUID7} (h : heldUnder taskId token o = true) :
    o.id = taskId := by
  simp only [heldUnder,Bool.and_eq_true,beq_iff_eq] at h
  exact h.1.1

theorem awaiting_cases (ha : h.awaiting = some key) :
    (∃ task, h = .immediate task false ∧ key = ownAuthorization task) ∨
    ∃ start x tasks, h = .dispatch start (x::tasks) none ∧ key = taskAuthorization x := by
  cases h with
  | immediate task answered =>
    cases answered with
    | true => simp [Holder.awaiting] at ha
    | false => exact Or.inl ⟨task,rfl,(Option.some.inj ha).symm⟩
  | dispatch start tasks answer =>
    cases tasks with
    | nil => simp [Holder.awaiting] at ha
    | cons x tasks =>
      cases answer with
      | some invalidated => simp [Holder.awaiting] at ha
      | none => exact Or.inr ⟨start,x,tasks,rfl,(Option.some.inj ha).symm⟩
  | ended => simp [Holder.awaiting] at ha

theorem settling_cases {h next : Holder} {x : OutboxTx Bool} (hs : h.settling now = some (x,next)) :
    (∃ task, h = .immediate task true ∧ x = markImmediateCompleted task.taskId now ∧
      next = .ended) ∨
    ∃ start y tasks answer, h = .dispatch start (y::tasks) (some answer) ∧
      x = settleTask start y answer ∧ next = .dispatch start tasks none := by
  cases h with
  | immediate task answered =>
    cases answered with
    | true =>
      obtain ⟨rfl,rfl⟩ := Prod.mk.inj (Option.some.inj hs)
      exact Or.inl ⟨task,rfl,rfl,rfl⟩
    | false => simp [Holder.settling] at hs
  | dispatch start tasks answer =>
    cases tasks with
    | nil => simp [Holder.settling] at hs
    | cons y tasks =>
      cases answer with
      | none => simp [Holder.settling] at hs
      | some answer =>
        obtain ⟨rfl,rfl⟩ := Prod.mk.inj (Option.some.inj hs)
        exact Or.inr ⟨start,y,tasks,answer,rfl,rfl,rfl⟩
  | ended => simp [Holder.settling] at hs

theorem settling_moves {h next : Holder} {x : OutboxTx Bool} {b : Bool}
    (hx : h.settling now = some (x,next)) (hc : Completes D t h) (ht : x t = .ok (b,t')) :
    Evolves (RowMove D K) RowNew t t' := by
  rcases settling_cases hx with ⟨task,rfl,rfl,-⟩ | ⟨start,y,tasks,answer,rfl,rfl,-⟩
  · simp only [markImmediateCompleted,bind_ok,pure_ok] at ht
    obtain ⟨n,_,hupdate,-,rfl⟩ := ht
    have hid : ∀ o, isPending task.taskId o = true → o.id = task.taskId := by
      intro o ho
      simp only [isPending,Bool.and_eq_true,beq_iff_eq] at ho
      exact ho.1
    exact evolves_row hupdate task.taskId hid (fun _ => rfl)
      fun o ho hp => completedRow_moves (hc o ho (hid o hp))
  · simp only [settleTask,bind_ok,orFail_ok] at ht
    obtain ⟨token,_,⟨-,rfl⟩,ht⟩ := ht
    cases answer with
    | true =>
      simp only [if_true,markCompleted,bind_ok,pure_ok] at ht
      obtain ⟨n,_,hupdate,-,rfl⟩ := ht
      exact evolves_row hupdate y.id (fun _ => heldUnder_id) (fun _ => rfl)
        fun o ho hp => completedRow_moves (hc o ho (heldUnder_id hp))
    | false =>
      simp only [Bool.false_eq_true,if_false,releaseFailed,bind_ok,require_ok,pure_ok] at ht
      obtain ⟨_,_,⟨-,rfl⟩,n,_,hupdate,-,rfl⟩ := ht
      exact evolves_row hupdate y.id (fun _ => heldUnder_id) (fun _ => rfl)
        fun o _ _ => releasedRow_moves

theorem claimBatch_moves {b : ClaimBatch} (h : claimBatch b t = .ok (tasks,t')) :
    Evolves (RowMove D fun k => ∃ id, b.newToken id = k) RowNew t t' ∧
    ∀ x ∈ tasks, ∃ o ∈ t', o.id = x.id ∧ rowAuthorization o = taskAuthorization x := by
  simp only [claimBatch,bind_ok,require_ok,read_ok,updateRows_ok,pure_ok,id_eq] at h
  obtain ⟨_,_,⟨-,rfl⟩,_,_,⟨rfl,rfl⟩,n,_,⟨-,hrows⟩,rfl,rfl⟩ := h
  constructor
  · have hclaimed : ∀ o, RowMove D (fun k => ∃ id, b.newToken id = k) o (claimedRow b o) :=
      fun o => ⟨rfl,(fun hs => by cases hs),fun k hk => Or.inr ⟨o.id,Option.some.inj hk⟩⟩
    exact evolves_updated (f := claimedRow b) (fun _ => rfl) rowMove_refl
      (fun o _ => hclaimed o) hrows
  · intro x hx
    obtain ⟨o,ho,rfl⟩ := List.mem_map.mp hx
    have hbatch : inBatch b _ o = true := List.any_eq_true.mpr ⟨o,ho,beq_self_eq_true _⟩
    have hmem := (List.perm_insertionSort availableBefore _).mem_iff.mp (List.mem_of_mem_take ho)
    refine ⟨claimedRow b o,?_,rfl,rfl⟩
    rw [mem_rows,hrows]
    exact List.mem_map.mpr ⟨o,(mem_selectRows.mp hmem).1,if_pos hbatch⟩

def drawnBy : CacheOp → UUID7 → Prop
  | .claim _ _ _ _ newToken, k => ∃ id, newToken id = k
  | _, _ => False

theorem mutation_outbox {q : MutationCall} {c : MemberMutation} {db db' : TenancyDatabase}
    (h : MutationEffect q c db committed db') :
    Evolves (RowMove D K) RowNew db.cacheOutbox db'.cacheOutbox ∧
    ∀ task, committed.cacheTask = some task →
      ∃ o ∈ db'.cacheOutbox, o.id = task.taskId ∧ rowAuthorization o = ownAuthorization task := by
  cases h with
  | kept records hnone =>
    refine ⟨evolves_refl rowMove_refl _,fun task htask => ?_⟩
    rw [hnone] at htask
    cases htask
  | changed locked p _ h =>
    obtain ⟨recordId,hinserted⟩ := h.outbox
    refine ⟨evolves_inserted rowMove_refl ⟨rfl,rfl⟩ hinserted,fun task htask => ?_⟩
    rw [h.task] at htask
    cases htask
    exact ⟨_,(inserted_mem hinserted).mpr (Or.inl rfl),rfl,rfl⟩

theorem step_moves (op : CacheOp) (w : CacheWorld)
    (hc : ∀ h ∈ w.holders, Completes D w.db.cacheOutbox h) :
    Evolves (RowMove D (drawnBy op)) RowNew w.db.cacheOutbox
      (cacheStep op w).db.cacheOutbox := by
  cases op with
  | mutate q c =>
    simp only [cacheStep,mutateStep]
    cases hx : mutateMember q c w.db with
    | error failure => exact evolves_refl rowMove_refl _
    | ok result => exact (mutation_outbox (mutateMember_effect hx)).1
  | elsewhere others => exact evolves_refl rowMove_refl _
  | claim dispatcher now limit locked newToken =>
    simp only [cacheStep,claimStep]
    cases hx : zoom cacheOutboxOf (claimBatch (runClaim dispatcher now limit locked newToken))
        w.db with
    | error failure => exact evolves_refl rowMove_refl _
    | ok result =>
      obtain ⟨t,ht,hdb⟩ := zoom_ok.mp hx
      simp only [hdb]
      exact (claimBatch_moves ht).1
  | answer i succeeds =>
    simp only [cacheStep,answerStep]
    split
    · exact evolves_refl rowMove_refl _
    · split
      · exact evolves_refl rowMove_refl _
      · exact evolves_refl rowMove_refl _
  | finish i now =>
    simp only [cacheStep,finishStep]
    cases hs : w.holders[i]?.bind (Holder.settling now) with
    | none => exact evolves_refl rowMove_refl _
    | some settled =>
      obtain ⟨x,next⟩ := settled
      obtain ⟨h,hget,hsettle⟩ := Option.bind_eq_some_iff.mp hs
      simp only
      cases hx : zoom cacheOutboxOf x w.db with
      | error failure => exact evolves_refl rowMove_refl _
      | ok result =>
        obtain ⟨t,ht,hdb⟩ := zoom_ok.mp hx
        simp only [hdb]
        exact settling_moves hsettle (hc h (List.mem_of_getElem? hget)) ht
  | crash i => exact evolves_refl rowMove_refl _

/-- What a holder relies on: its rows, and the answers it has had. -/
def Backed (invalidated : List CachedAuthorization) (t : CacheOutbox) : Holder → Prop
  | .immediate task answered =>
    (∃ o ∈ t, o.id = task.taskId ∧ rowAuthorization o = ownAuthorization task) ∧
    (answered = true → ownAuthorization task ∈ invalidated)
  | .dispatch _ tasks answer =>
    (∀ x ∈ tasks, ∃ o ∈ t, o.id = x.id ∧ rowAuthorization o = taskAuthorization x) ∧
    (answer = some true → ∀ x ∈ tasks.head?, taskAuthorization x ∈ invalidated)
  | .ended => True

structure Sound (w : CacheWorld) : Prop where
  covered : ∀ o ∈ w.db.cacheOutbox, o.status = .completed → rowAuthorization o ∈ w.invalidated
  backed : ∀ h ∈ w.holders, Backed w.invalidated w.db.cacheOutbox h

theorem row_named {id : UUID7} (h : ∃ o ∈ t, o.id = id ∧ rowAuthorization o = key) (ho : o ∈ t)
    (hid : o.id = id) :
    rowAuthorization o = key := by
  obtain ⟨p,hp,hpid,hkey⟩ := h
  rw [eq_of_key ho hp (hid.trans hpid.symm)]
  exact hkey

theorem backed_completes (hb : Backed invalidated t h) : Completes (· ∈ invalidated) t h := by
  match h, hb with
  | .immediate task true, hb =>
    intro o ho hid
    rw [row_named hb.1 ho hid]
    exact hb.2 rfl
  | .immediate task false, hb => trivial
  | .dispatch start (x::tasks) (some true), hb =>
    intro o ho hid
    rw [row_named (hb.1 x (by simp)) ho hid]
    exact hb.2 rfl x (by simp)
  | .dispatch start (x::tasks) (some false), hb => trivial
  | .dispatch start (x::tasks) none, hb => trivial
  | .dispatch start [] answer, hb => trivial
  | .ended, hb => trivial

theorem row_moved (h : Evolves (RowMove D K) RowNew t t') {id : UUID7}
    (ho : ∃ o ∈ t, o.id = id ∧ rowAuthorization o = key) :
    ∃ o ∈ t', o.id = id ∧ rowAuthorization o = key := by
  obtain ⟨o,ho,rfl,rfl⟩ := ho
  obtain ⟨o',ho',hid,hmove⟩ := h.kept o ho
  exact ⟨o',ho',hid,hmove.authorization⟩

theorem backed_moved {invalidated invalidated' : List CachedAuthorization}
    (hmoves : Evolves (RowMove D K) RowNew t t') (hlog : ∀ k ∈ invalidated, k ∈ invalidated')
    (hb : Backed invalidated t h) :
    Backed invalidated' t' h := by
  cases h with
  | immediate task answered => exact ⟨row_moved hmoves hb.1,fun ha => hlog _ (hb.2 ha)⟩
  | dispatch now tasks answer =>
    exact ⟨fun x hx => row_moved hmoves (hb.1 x hx),fun ha x hx => hlog _ (hb.2 ha x hx)⟩
  | ended => trivial

theorem step_log (op : CacheOp) (w : CacheWorld) :
    ∀ k ∈ w.invalidated, k ∈ (cacheStep op w).invalidated := by
  intro k hk
  cases op with
  | mutate q c =>
    simp only [cacheStep,mutateStep]
    split <;> exact hk
  | elsewhere others => exact hk
  | claim dispatcher now limit locked newToken =>
    simp only [cacheStep,claimStep]
    split <;> exact hk
  | answer i succeeds =>
    simp only [cacheStep,answerStep]
    split
    · exact hk
    · split
      · exact hk
      · cases succeeds with
        | true => exact List.mem_cons_of_mem _ hk
        | false => exact hk
  | finish i now =>
    simp only [cacheStep,finishStep]
    split
    · exact hk
    · split <;> exact hk
  | crash i => exact hk

theorem answered_backed {succeeds : Bool} (hb : Backed invalidated t h) (ha : h.awaiting = some
      key) :
    Backed (if succeeds then key::invalidated else invalidated) t (h.answered succeeds) := by
  rcases awaiting_cases ha with ⟨task,rfl,rfl⟩ | ⟨start,x,tasks,rfl,rfl⟩
  · cases succeeds with
    | true => exact ⟨hb.1,fun _ => List.mem_cons_self⟩
    | false => trivial
  · refine ⟨hb.1,fun hs y hy => ?_⟩
    cases hs
    cases hy
    exact List.mem_cons_self

theorem settling_backed {h next : Holder} {x : OutboxTx Bool} (hb : Backed invalidated t h)
    (hs : h.settling now = some (x,next)) : Backed invalidated t next := by
  rcases settling_cases hs with ⟨task,-,-,rfl⟩ | ⟨start,y,tasks,answer,rfl,-,rfl⟩
  · trivial
  · exact ⟨fun z hz => hb.1 z (by simp [hz]),fun ha => by cases ha⟩

theorem started_backed
    (hrow : ∀ task, committed.cacheTask = some task → ∃ o ∈ t, o.id = task.taskId ∧
      rowAuthorization o = ownAuthorization task) :
    ∀ h ∈ started committed, Backed invalidated t h := by
  obtain ⟨result,cacheTask⟩ := committed
  cases cacheTask with
  | none => simp [started]
  | some task =>
    intro h hh
    obtain rfl : h = .immediate task false := by simpa [started] using hh
    exact ⟨hrow task rfl,fun ha => by cases ha⟩

theorem step_backed (op : CacheOp) (w : CacheWorld) (hw : Sound w) :
    ∀ h ∈ (cacheStep op w).holders,
      Backed (cacheStep op w).invalidated (cacheStep op w).db.cacheOutbox h := by
  have hold : ∀ h ∈ w.holders,
      Backed (cacheStep op w).invalidated (cacheStep op w).db.cacheOutbox h := fun h hh =>
    backed_moved (step_moves op w fun h hh => backed_completes (hw.backed h hh)) (step_log op w)
      (hw.backed h hh)
  have hset : ∀ (i : ℕ) (next : Holder) (h : Holder), h ∈ w.holders.set i next →
      h ∈ w.holders ∨ h = next := fun i next h hh => List.mem_or_eq_of_mem_set hh
  intro h hh
  cases op with
  | mutate q c =>
    simp only [cacheStep,mutateStep] at hold hh ⊢
    cases hx : mutateMember q c w.db with
    | error failure =>
      simp only [hx] at hold hh ⊢
      exact hold h hh
    | ok result =>
      simp only [hx] at hold hh ⊢
      rcases List.mem_append.mp hh with hh | hh
      · exact hold h hh
      · exact started_backed (mutation_outbox (D := fun _ => True) (K := fun _ => True)
          (mutateMember_effect hx)).2 h hh
  | elsewhere others => exact hold h hh
  | claim dispatcher now limit locked newToken =>
    simp only [cacheStep,claimStep] at hold hh ⊢
    cases hx : zoom cacheOutboxOf (claimBatch (runClaim dispatcher now limit locked newToken))
        w.db with
    | error failure =>
      simp only [hx] at hold hh ⊢
      exact hold h hh
    | ok result =>
      simp only [hx] at hold hh ⊢
      rcases List.mem_append.mp hh with hh | hh
      · exact hold h hh
      · obtain ⟨t,ht,hdb⟩ := zoom_ok.mp hx
        obtain rfl := List.mem_singleton.mp hh
        rw [hdb]
        exact ⟨(claimBatch_moves (D := fun _ => True) ht).2,fun ha => by cases ha⟩
  | answer i succeeds =>
    simp only [cacheStep,answerStep] at hold hh ⊢
    cases hget : w.holders[i]? with
    | none =>
      simp only [hget] at hold hh ⊢
      exact hold h hh
    | some waiting =>
      simp only [hget] at hold hh ⊢
      cases ha : waiting.awaiting with
      | none =>
        simp only [ha] at hold hh ⊢
        exact hold h hh
      | some key =>
        simp only [ha] at hold hh ⊢
        rcases hset _ _ _ hh with hh | rfl
        · exact hold h hh
        · exact answered_backed (hw.backed _ (List.mem_of_getElem? hget)) ha
  | finish i now =>
    simp only [cacheStep,finishStep] at hold hh ⊢
    cases hs : w.holders[i]?.bind (Holder.settling now) with
    | none =>
      simp only [hs] at hold hh ⊢
      exact hold h hh
    | some settled =>
      obtain ⟨x,next⟩ := settled
      obtain ⟨settler,hget,hsettle⟩ := Option.bind_eq_some_iff.mp hs
      simp only [hs] at hold hh ⊢
      cases hx : zoom cacheOutboxOf x w.db with
      | error failure =>
        simp only [hx] at hold hh ⊢
        rcases hset _ _ _ hh with hh | rfl
        · exact hold h hh
        · trivial
      | ok result =>
        simp only [hx] at hold hh ⊢
        rcases hset _ _ _ hh with hh | rfl
        · exact hold h hh
        · exact settling_backed (hold settler (List.mem_of_getElem? hget)) hsettle
  | crash i =>
    rcases hset _ _ _ hh with hh | rfl
    · exact hold h hh
    · trivial

theorem step_sound (op : CacheOp) (w : CacheWorld) (hw : Sound w) : Sound (cacheStep op w) := by
  refine ⟨fun o' ho' hs => ?_,step_backed op w hw⟩
  have hmoves := step_moves op w fun h hh => backed_completes (hw.backed h hh)
  rcases hmoves.came o' ho' with ⟨o,ho,-,hmove⟩ | ⟨hnew,-⟩
  · rw [hmove.authorization]
    refine step_log op w _ ?_
    rcases hmove.completed hs with hdone | hdone
    · exact hw.covered o ho hdone
    · exact hdone
  · rw [hnew.status] at hs
    cases hs

def sampleTenant : UUID7 := ⟨0,1,0⟩
def sampleUser : UUID7 := ⟨0,2,0⟩
def ownerRole : UUID7 := ⟨0,3,0⟩
def lawyerRole : UUID7 := ⟨0,3,1⟩

def owner : TenantMembershipModel :=
  ⟨⟨⟨0,4,0⟩,sampleTenant,sampleUser,none,.owner,.active,0,none,1,1⟩⟩

def lawyer : TenantMembershipModel :=
  ⟨⟨⟨0,4,1⟩,sampleTenant,⟨0,2,1⟩,none,.internal,.active,0,none,1,1⟩⟩

/-- A tenant of two members, its owner signed in. -/
def staffed : TenancyDatabase where
  rollout := {
    identity := {
      users := .single ⟨sampleUser,.active,1⟩ rfl
      tenants := .single ⟨sampleTenant,"Firm","firm",.lawFirm,.active,sampleUser,.approved,1⟩ rfl
      departments := .empty
      memberships := ⟨[owner,lawyer],by decide⟩
      permissions := .single ⟨⟨0,5,0⟩,"membership.update",.active⟩ rfl
      tenantRoles := ⟨[⟨ownerRole,sampleTenant,none,"tenant_owner","",false,.active,1⟩,
        ⟨lawyerRole,sampleTenant,none,"lawyer_or_legal","",false,.active,1⟩],by decide⟩
      rolePermissions := .single ⟨sampleTenant,ownerRole,⟨0,5,0⟩⟩ rfl
      assignments := ⟨[⟨sampleTenant,owner.id,ownerRole,none⟩,
        ⟨sampleTenant,lawyer.id,lawyerRole,none⟩],by decide⟩}
    templates := .empty
    templatePermissions := .empty
    rollouts := .empty
    tenantStates := .empty}
  sessions := .single ⟨⟨0,6,0⟩,sampleUser,some sampleTenant,some owner.id,⟨0,6,1⟩,1,some 1,none,
    none,0,1000,1,0⟩ rfl
  tokens := .empty
  records := .empty
  cacheOutbox := .empty
  invitations := .empty
  invitationRoles := .empty

def signedInOwner : TenantActor where
  principal := {
    userId := sampleUser
    sessionId := ⟨0,6,0⟩
    audience := .tenant
    tenantId := some sampleTenant
    membershipId := some owner.id
    userStatus := .active
    sessionValid := true
    authVersion := 1
    sessionAuthVersion := 1
    permissions := []
    roleCodes := []}
  context := {
    tenantId := sampleTenant
    membershipId := some owner.id
    membershipUserId := some sampleUser
    departmentId := none
    tenantStatus := .active
    membershipStatus := some .active
    validFrom := some 0
    validUntil := none
    authzVersion := some 1
    sessionAuthzVersion := some 1
    scope := {allowTenantWide := true}}

end LawyerAgent.CacheInvalidation
