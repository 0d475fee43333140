import LawyerAgent.AIJobOperations
import LawyerAgent.AIJobSubmission
import LawyerAgent.Relational.Evolution
import LawyerAgent.Relational.Run

/-!
# Lifecycle of a job

Transitions, lease and terminal columns, row versions and the attempt of a
succeeded job, over every run of the repository operations.
-/

set_option autoImplicit false

namespace LawyerAgent.AIJobLifecycle
open Relational Common AIJobDomain AIJobTables
open AIJobRepository AIJobOperations

/-- A row that changes leaves a live status along an allowed transition, or
keeps its status, and gets a larger version. None becomes claimable again. -/
structure JobAdvance (j j' : AIJobModel) : Prop where
  live : j.status ∉ terminalJobStatuses
  transition : j'.status = j.status ∨ (j.status,j'.status) ∈ allowedTransitions
  version : j.version < j'.version
  started : j'.status ∉ claimableStatuses

def JobNext (j j' : AIJobModel) : Prop := j' = j ∨ JobAdvance j j'

theorem jobNext_refl (j : AIJobModel) : JobNext j j := Or.inl rfl

theorem advance_along {j j' : AIJobModel} (target : AIJobStatus)
    (ha : (j.status,target) ∈ allowedTransitions) (ht : target ∉ claimableStatuses)
    (hj' : j'.status = target) (hv : j.version < j'.version) : JobAdvance j j' :=
  ⟨terminal_final _ ha,Or.inr (hj' ▸ ha),hv,hj' ▸ ht⟩

theorem claimable_transitions {status : AIJobStatus} (h : status ∈ claimableStatuses) :
    (status,.running) ∈ allowedTransitions ∧ (status,.failed) ∈ allowedTransitions ∧
    (status,.cancelled) ∈ allowedTransitions := by
  revert status
  decide

theorem claimed_advance (r : ClaimJobFields) (j : AIJobModel)
    (h : j.status ∈ claimableStatuses) : JobAdvance j (claimedJob r j) :=
  advance_along .running (claimable_transitions h).1 (by decide) rfl (Nat.lt_succ_self _)

theorem beaten_advance (r : FencedHeartbeatFields) (j : AIJobModel)
    (h : j.status ∈ leaseHoldingStatuses) : JobAdvance j (heartbeatJob r j) := by
  have hd : ∀ status ∈ leaseHoldingStatuses,
      status ∉ terminalJobStatuses ∧ status ∉ claimableStatuses := by decide
  exact ⟨(hd _ h).1,Or.inl rfl,Nat.lt_succ_self _,(hd _ h).2⟩

theorem finalized_advance (r : FencedFinalizeSuccessFields) (j : AIJobModel)
    (h : j.status = .running) : JobAdvance j (finalizedJob r j) :=
  advance_along .succeeded (by rw [h]; decide) (by decide) rfl (Nat.lt_succ_self _)

theorem ended_advance {j j' : AIJobModel} (h : j.status ∈ claimableStatuses)
    (hj : (∃ c d now, j' = failedJob c d now j) ∨ ∃ now, j' = cancelledJob now j) :
    JobAdvance j j' := by
  rcases hj with ⟨c,d,now,rfl⟩ | ⟨now,rfl⟩
  · exact advance_along .failed (claimable_transitions h).2.1 (by decide) rfl
      (Nat.lt_succ_self _)
  · exact advance_along .cancelled (claimable_transitions h).2.2 (by decide) rfl
      (Nat.lt_succ_self _)

variable {s s' : Store} {a : AIJobAttemptModel} {r : FencedFinalizeSuccessFields} {j : AIJobModel}
  {lastFence : Option ℕ}

theorem effect_evolves (h : JobEffect s s') :
    Evolves JobNext (fun _ => True) s.jobs s'.jobs := by
  cases h with
  | unchanged same =>
    rw [same]
    exact evolves_refl jobNext_refl s.jobs
  | added graph timestamp job grant outbox frame =>
    exact evolves_inserted jobNext_refl trivial job
  | claimed r timestamp j guard job attempt frame =>
    exact evolves_replaced jobNext_refl
      (Or.inr (claimed_advance r j (claimable_status guard))) job
  | beaten r j guard job frame =>
    exact evolves_replaced jobNext_refl
      (Or.inr (beaten_advance r j (heartbeatGuard_fields guard).2)) job
  | finalized r j guard job attempts frame =>
    exact evolves_replaced jobNext_refl
      (Or.inr (finalized_advance r j (finalizeGuard_fields guard).2)) job
  | ended tenantId jobId j j' guard target job frame =>
    exact evolves_replaced jobNext_refl
      (Or.inr (ended_advance (unstarted_fields guard).2 target)) job

structure AttemptsSound (s : Store) : Prop where
  owned : ∀ a ∈ s.attempts, ∃ j ∈ s.jobs, j.id = a.jobId
  unclaimed : ∀ j ∈ s.jobs, j.status ∈ claimableStatuses →
    ∀ a ∈ s.attempts, a.jobId ≠ j.id

theorem mem_attemptsFinalized {t : Table aiJobAttempts} (h : a ∈ attemptsFinalized r t) :
    ∃ b ∈ t, a = if finalizedAttemptGuard r b then succeededAttempt r b else b := by
  obtain ⟨b,hb,hab⟩ := List.mem_map.mp h
  exact ⟨b,hb,hab.symm⟩

theorem finalized_jobId (r : FencedFinalizeSuccessFields) (b : AIJobAttemptModel) :
    (if finalizedAttemptGuard r b then succeededAttempt r b else b).jobId = b.jobId := by
  by_cases h : finalizedAttemptGuard r b = true
  · rw [if_pos h]
    rfl
  · rw [if_neg h]

theorem effect_attempts (h : JobEffect s s') (ha : a ∈ s'.attempts) :
    (∃ b ∈ s.attempts, b.jobId = a.jobId) ∨
    ∃ r timestamp j, a = attemptModel r timestamp ∧ claimable r j = true ∧
      Replaced j (claimedJob r j) s.jobs s'.jobs := by
  cases h with
  | unchanged same => exact Or.inl ⟨a,same ▸ ha,rfl⟩
  | added graph timestamp job grant outbox frame => exact Or.inl ⟨a,frame.1 ▸ ha,rfl⟩
  | claimed r timestamp j guard job attempt frame =>
    rcases (inserted_mem attempt).mp ha with rfl | ha
    · exact Or.inr ⟨r,timestamp,j,rfl,guard,job⟩
    · exact Or.inl ⟨a,ha,rfl⟩
  | beaten r j guard job frame =>
    rw [frame] at ha
    exact Or.inl ⟨a,ha,rfl⟩
  | finalized r j guard job attempts frame =>
    rw [mem_rows,attempts] at ha
    obtain ⟨b,hb,rfl⟩ := mem_attemptsFinalized ha
    exact Or.inl ⟨b,hb,(finalized_jobId r b).symm⟩
  | ended tenantId jobId j j' guard target job frame =>
    rw [frame] at ha
    exact Or.inl ⟨a,ha,rfl⟩

theorem claimable_source {j j' : AIJobModel} (h : JobNext j j')
    (hs : j'.status ∈ claimableStatuses) : j' = j := by
  rcases h with rfl | h
  · rfl
  · exact absurd hs h.started

theorem replaced_claimed {r : ClaimJobFields} (hr : Replaced j (claimedJob r j) s.jobs s'.jobs) :
    claimedJob r j ∈ s'.jobs :=
  (replaced_mem hr).mpr (Or.inl rfl)

theorem effect_attemptsSound (h : JobEffect s s') (hs : AttemptsSound s) :
    AttemptsSound s' := by
  have hev := effect_evolves h
  constructor
  · intro a ha
    rcases effect_attempts h ha with ⟨b,hb,hba⟩ | ⟨r,timestamp,j,rfl,guard,hrep⟩
    · obtain ⟨j,hj,hid⟩ := hs.owned b hb
      obtain ⟨j',hj',hk,-⟩ := hev.kept j hj
      exact ⟨j',hj',hk.trans (hid.trans hba)⟩
    · exact ⟨_,replaced_claimed hrep,(isJob_id (claimable_isJob guard)).2⟩
  · intro j' hj' hc a ha hja
    rcases effect_attempts h ha with ⟨b,hb,hba⟩ | ⟨r,timestamp,j,rfl,guard,hrep⟩
    · rcases hev.came j' hj' with ⟨j,hj,hk,hn⟩ | ⟨-,hfresh⟩
      · obtain rfl := claimable_source hn hc
        exact hs.unclaimed j' hj hc b hb (hba.trans hja)
      · obtain ⟨i,hi,hid⟩ := hs.owned b hb
        exact hfresh i hi (hja.symm.trans (hba.symm.trans hid.symm))
    · have hid : j'.id = (claimedJob r j).id :=
        hja.symm.trans (isJob_id (claimable_isJob guard)).2.symm
      rw [eq_of_key hj' (replaced_claimed hrep) hid] at hc
      exact absurd hc (by simp [claimedJob,claimableStatuses])

/-- `a` is the only attempt of the job. -/
structure SoleAttempt (s : Store) (j : AIJobModel) (a : AIJobAttemptModel) : Prop where
  mem : a ∈ s.attempts
  tenantId : a.tenantId = j.tenantId
  jobId : a.jobId = j.id
  only : ∀ b ∈ s.attempts, b.jobId = j.id → b = a

/-- The attempt that accounts for the status of a job first seen claimable. -/
def Accounted (s : Store) (lastFence : Option ℕ) (j : AIJobModel) : Prop :=
  match j.status with
  | .running => ∃ a, SoleAttempt s j a ∧ a.status = .claimed ∧
      lastFence = some a.leaseFence ∧ j.leaseFence = some a.leaseFence
  | .succeeded => ∃ a, SoleAttempt s j a ∧ a.status = .succeeded ∧
      lastFence = some a.leaseFence
  | .cancelRequested => False
  | _ => True

theorem accounted_running (hj : j.status = .running) : Accounted s lastFence j ↔
      ∃ a, SoleAttempt s j a ∧ a.status = .claimed ∧
        lastFence = some a.leaseFence ∧ j.leaseFence = some a.leaseFence := by
  simp [Accounted,hj]

theorem accounted_succeeded (hj : j.status = .succeeded) : Accounted s lastFence j ↔
      ∃ a, SoleAttempt s j a ∧ a.status = .succeeded ∧ lastFence = some a.leaseFence := by
  simp [Accounted,hj]

/-- A job that keeps its row and its attempts stays accounted for. -/
theorem accounted_frame (hj : j ∈ s'.jobs)
    (hsub : ∀ a ∈ s.attempts, a.jobId = j.id → a ∈ s'.attempts)
    (hsup : ∀ a ∈ s'.attempts, a.jobId = j.id → a ∈ s.attempts) (h : Accounted s lastFence j) :
    Accounted s' (j.leaseFence.or lastFence) j := by
  have hsole : ∀ a, SoleAttempt s j a → SoleAttempt s' j a := fun a ha =>
    ⟨hsub a ha.mem ha.jobId,ha.tenantId,ha.jobId,
      fun b hb hbj => ha.only b (hsup b hb hbj) hbj⟩
  have hlease := (job_lease hj).2.2.1
  cases hs : j.status with
  | running =>
    obtain ⟨a,ha,hc,hl,hf⟩ := (accounted_running hs).mp h
    exact (accounted_running hs).mpr ⟨a,hsole a ha,hc,by rw [hf]; rfl,hf⟩
  | succeeded =>
    obtain ⟨a,ha,hc,hl⟩ := (accounted_succeeded hs).mp h
    have hnone : j.leaseFence = none := by
      simpa [hs,leaseHoldingStatuses] using hlease
    exact (accounted_succeeded hs).mpr ⟨a,hsole a ha,hc,by rw [hnone]; exact hl⟩
  | cancelRequested => simp [Accounted,hs] at h
  | queued => simp [Accounted,hs]
  | retryScheduled => simp [Accounted,hs]
  | failed => simp [Accounted,hs]
  | cancelled => simp [Accounted,hs]

theorem accounted_claimed {r : ClaimJobFields} {timestamp : Time} (hs : AttemptsSound s)
    (hj : j ∈ s.jobs) (guard : claimable r j = true)
    (hins : Inserted (attemptModel r timestamp) s.attempts s'.attempts) :
    Accounted s' ((claimedJob r j).leaseFence.or lastFence) (claimedJob r j) := by
  obtain ⟨ht,hid⟩ := isJob_id (claimable_isJob guard)
  refine (accounted_running rfl).mpr ⟨attemptModel r timestamp,?_,rfl,rfl,rfl⟩
  refine ⟨(inserted_mem hins).mpr (Or.inl rfl),ht.symm,hid.symm,fun b hb hbj => ?_⟩
  rcases (inserted_mem hins).mp hb with rfl | hb
  · rfl
  · exact absurd hbj (hs.unclaimed j hj (claimable_status guard) b hb)

theorem leaseHolding_cases {status : AIJobStatus} (h : status ∈ leaseHoldingStatuses) :
    status = .running ∨ status = .cancelRequested := by
  simpa [leaseHoldingStatuses] using h

theorem accounted_beaten {r : FencedHeartbeatFields} (guard : heartbeatGuard r j = true)
    (hatt : s'.attempts = s.attempts) (h : Accounted s lastFence j) :
    Accounted s' ((heartbeatJob r j).leaseFence.or lastFence) (heartbeatJob r j) := by
  rcases leaseHolding_cases (heartbeatGuard_fields guard).2 with hr | hc
  · obtain ⟨a,ha,hst,hl,hf⟩ := (accounted_running hr).mp h
    have hsole : SoleAttempt s' (heartbeatJob r j) a :=
      ⟨hatt ▸ ha.mem,ha.tenantId,ha.jobId,fun b hb hbj => ha.only b (hatt ▸ hb) hbj⟩
    refine (accounted_running (j := heartbeatJob r j) hr).mpr ⟨a,hsole,hst,?_,hf⟩
    change j.leaseFence.or lastFence = _
    rw [hf]
    rfl
  · simp [Accounted,hc] at h

theorem accounted_finalized (guard : finalizeGuard r j = true)
    (hatt : s'.attempts.rows = attemptsFinalized r s.attempts) (h : Accounted s lastFence j) :
    Accounted s' ((finalizedJob r j).leaseFence.or lastFence) (finalizedJob r j) := by
  obtain ⟨hheld,hrun⟩ := finalizeGuard_fields guard
  obtain ⟨hjob,-,hfence,-⟩ := leaseHeldBy_fields hheld
  obtain ⟨htenant,hid⟩ := isJob_id hjob
  obtain ⟨a,ha,hst,hl,hf⟩ := (accounted_running hrun).mp h
  have hfa : a.leaseFence = r.leaseFence := Option.some.inj (hf.symm.trans hfence)
  have hguard : finalizedAttemptGuard r a = true := by
    simp [finalizedAttemptGuard,hst,hfa,ha.tenantId,ha.jobId,htenant,hid]
  refine (accounted_succeeded rfl).mpr ⟨succeededAttempt r a,?_,rfl,hl⟩
  refine ⟨?_,ha.tenantId,ha.jobId,fun b hb hbj => ?_⟩
  · rw [mem_rows,hatt,attemptsFinalized]
    refine List.mem_map.mpr ⟨a,ha.mem,?_⟩
    rw [if_pos hguard]
  · rw [mem_rows,hatt] at hb
    obtain ⟨c,hc,rfl⟩ := mem_attemptsFinalized hb
    rw [finalized_jobId] at hbj
    rw [ha.only c hc hbj,if_pos hguard]

theorem finalized_other (h : a.jobId ≠ r.jobId) :
    (if finalizedAttemptGuard r a then succeededAttempt r a else a) = a := by
  rw [if_neg]
  simp [finalizedAttemptGuard,h]

theorem accounted_effect (h : JobEffect s s') (hs : AttemptsSound s) {j j' : AIJobModel}
    (hj : j ∈ s.jobs) (hj' : j' ∈ s'.jobs) (hid : j'.id = j.id) (hacc : Accounted s lastFence j) :
    Accounted s' (j'.leaseFence.or lastFence) j' := by
  cases h with
  | unchanged same =>
    subst same
    obtain rfl := eq_of_key hj' hj hid
    exact accounted_frame hj' (fun _ ha _ => ha) (fun _ ha _ => ha) hacc
  | added graph timestamp job grant outbox frame =>
    obtain rfl := eq_of_key hj' ((inserted_mem job).mpr (Or.inr hj)) hid
    exact accounted_frame hj' (fun _ ha _ => frame.1 ▸ ha) (fun _ ha _ => frame.1 ▸ ha) hacc
  | claimed r timestamp i guard job attempt frame =>
    rcases (replaced_mem job).mp hj' with rfl | ⟨hold,hne⟩
    · obtain rfl := eq_of_key job.mem hj hid
      exact accounted_claimed hs job.mem guard attempt
    · obtain rfl := eq_of_key hold hj hid
      refine accounted_frame hj' (fun a ha _ => (inserted_mem attempt).mpr (Or.inr ha)) ?_ hacc
      intro a ha haj
      rcases (inserted_mem attempt).mp ha with rfl | ha
      · exact absurd (haj.symm.trans (isJob_id (claimable_isJob guard)).2.symm) hne
      · exact ha
  | beaten r i guard job frame =>
    have hatt : s'.attempts = s.attempts := by rw [frame]
    rcases (replaced_mem job).mp hj' with rfl | ⟨hold,hne⟩
    · obtain rfl := eq_of_key job.mem hj hid
      exact accounted_beaten guard hatt hacc
    · obtain rfl := eq_of_key hold hj hid
      exact accounted_frame hj' (fun _ ha _ => hatt ▸ ha) (fun _ ha _ => hatt ▸ ha) hacc
  | finalized r i guard job attempts frame =>
    rcases (replaced_mem job).mp hj' with rfl | ⟨hold,hne⟩
    · obtain rfl := eq_of_key job.mem hj hid
      exact accounted_finalized guard attempts hacc
    · obtain rfl := eq_of_key hold hj hid
      have hri : i.id = r.jobId :=
        (isJob_id (leaseHeldBy_fields (finalizeGuard_fields guard).1).1).2
      refine accounted_frame hj' (fun a ha haj => ?_) (fun a ha haj => ?_) hacc
      · rw [mem_rows,attempts,attemptsFinalized]
        refine List.mem_map.mpr ⟨a,ha,finalized_other fun hr => hne ?_⟩
        exact haj.symm.trans (hr.trans hri.symm)
      · rw [mem_rows,attempts] at ha
        obtain ⟨b,hb,rfl⟩ := mem_attemptsFinalized ha
        rw [finalized_jobId] at haj
        rw [finalized_other fun hr => hne (haj.symm.trans (hr.trans hri.symm))]
        exact hb
  | ended tenantId jobId i i' guard target job frame =>
    have hatt : s'.attempts = s.attempts := by rw [frame]
    rcases (replaced_mem job).mp hj' with rfl | ⟨hold,hne⟩
    · rcases target with ⟨c,d,now,rfl⟩ | ⟨now,rfl⟩
      · simp [Accounted,failedJob]
      · simp [Accounted,cancelledJob]
    · obtain rfl := eq_of_key hold hj hid
      exact accounted_frame hj' (fun _ ha _ => hatt ▸ ha) (fun _ ha _ => hatt ▸ ha) hacc

/-- What is remembered of one job along a run: whether it has been seen in a
claimable status, and the last fence its row has held. -/
structure JobHistory where
  store : Store
  claimableSeen : Bool
  lastFence : Option ℕ

def JobHistory.start : JobHistory := ⟨Store.empty,false,none⟩

def jobRow (id : UUID7) (s : Store) : Option AIJobModel :=
  selectRow (fun j => j.id == id) s.jobs

def seenClaimable (id : UUID7) (s : Store) : Bool :=
  (jobRow id s).any fun j => decide (j.status ∈ claimableStatuses)

def observe (id : UUID7) (op : JobOp) (t : JobHistory) : JobHistory :=
  let s := jobStep op t.store
  ⟨s,t.claimableSeen || seenClaimable id s,
    ((jobRow id s).bind fun j => j.leaseFence).or t.lastFence⟩

theorem observe_store (id : UUID7) (ops : List JobOp) (t : JobHistory) :
    (run (observe id) ops t).store = run jobStep ops t.store := by
  induction ops generalizing t with
  | nil => rfl
  | cons op ops ih => exact ih (observe id op t)

theorem jobRow_eq {id : UUID7} (hj : j ∈ s.jobs) (hid : j.id = id) : jobRow id s = some j := by
  refine selectRow_eq hj (by simp [hid]) fun i hi hp => ?_
  exact eq_of_key hi hj ((by simpa using hp : i.id = id).trans hid.symm)

theorem jobRow_some {id : UUID7} (h : jobRow id s = some j) :
    j ∈ s.jobs ∧ j.id = id := by
  obtain ⟨hj,hp⟩ := selectRow_some h
  exact ⟨hj,by simpa using hp⟩

/-- The state of a history: a job seen claimable is still stored and its row
is accounted for by its attempts. -/
structure HistorySound (id : UUID7) (t : JobHistory) : Prop where
  attempts : AttemptsSound t.store
  stored : t.claimableSeen = true → ∃ j ∈ t.store.jobs, j.id = id
  accounted : t.claimableSeen = true → ∀ j ∈ t.store.jobs, j.id = id →
    Accounted t.store t.lastFence j

theorem start_sound (id : UUID7) : HistorySound id .start := by
  refine ⟨⟨?_,?_⟩,?_,?_⟩
  · intro a ha
    exact absurd ha (not_mem_empty a)
  · intro j hj
    exact absurd hj (not_mem_empty j)
  · intro h
    cases h
  · intro h
    cases h

theorem observe_sound (id : UUID7) (op : JobOp) (t : JobHistory) (ht : HistorySound id t) :
    HistorySound id (observe id op t) := by
  have heff := jobStep_effect op t.store
  have hseen : (observe id op t).claimableSeen = true →
      (∃ j ∈ t.store.jobs, j.id = id ∧ Accounted t.store t.lastFence j) ∨
      ∃ j ∈ (jobStep op t.store).jobs, j.id = id ∧ j.status ∈ claimableStatuses := by
    intro h
    rcases (Bool.or_eq_true _ _).mp h with h | h
    · obtain ⟨j,hj,hid⟩ := ht.stored h
      exact Or.inl ⟨j,hj,hid,ht.accounted h j hj hid⟩
    · right
      unfold seenClaimable at h
      cases hr : jobRow id (jobStep op t.store) with
      | none => simp [hr] at h
      | some j =>
        obtain ⟨hj,hid⟩ := jobRow_some hr
        exact ⟨j,hj,hid,by simpa [hr] using h⟩
  refine ⟨effect_attemptsSound heff ht.attempts,fun h => ?_,fun h j' hj' hid' => ?_⟩
  · rcases hseen h with ⟨j,hj,hid,-⟩ | ⟨j,hj,hid,-⟩
    · obtain ⟨j',hj',hk,-⟩ := (effect_evolves heff).kept j hj
      exact ⟨j',hj',hk.trans hid⟩
    · exact ⟨j,hj,hid⟩
  · rcases hseen h with ⟨j,hj,hid,hacc⟩ | ⟨j,hj,hid,hc⟩
    · have hrow : jobRow id (jobStep op t.store) = some j' := jobRow_eq hj' hid'
      change Accounted (jobStep op t.store)
        (((jobRow id (jobStep op t.store)).bind fun j => j.leaseFence).or t.lastFence) j'
      rw [hrow]
      exact accounted_effect heff ht.attempts hj hj' (hid'.trans hid.symm) hacc
    · obtain rfl := eq_of_key hj' hj (hid'.trans hid.symm)
      have hcases : j'.status = .queued ∨ j'.status = .retryScheduled := by
        simpa [claimableStatuses] using hc
      rcases hcases with hq | hq
      · simp [Accounted,hq]
      · simp [Accounted,hq]

theorem history_sound (id : UUID7) (ops : List JobOp) :
    HistorySound id (run (observe id) ops .start) :=
  run_invariant (observe_sound id) ops _ (start_sound id)

/-- Lease and terminal columns agree with the status. -/
structure ColumnsAgree (j : AIJobModel) : Prop where
  lease : j.leaseOwner.isSome = decide (j.status ∈ leaseHoldingStatuses) ∧
    j.leaseToken.isSome = decide (j.status ∈ leaseHoldingStatuses) ∧
    j.leaseFence.isSome = decide (j.status ∈ leaseHoldingStatuses) ∧
    j.leaseExpiresAt.isSome = decide (j.status ∈ leaseHoldingStatuses)
  completed : j.completedAt.isSome = decide (j.status ∈ terminalJobStatuses)
  nextAttempt : j.status ∈ terminalJobStatuses → j.nextAttemptAt = none

theorem columns_agree {t : Table aiJobs} (h : j ∈ t) : ColumnsAgree j :=
  ⟨job_lease h,(job_terminal h).1,(job_terminal h).2⟩

theorem heartbeat_status (request : FencedHeartbeat) (s : Store) {j j' : AIJobModel}
    (hj : j ∈ s.jobs) (hj' : j' ∈ (jobStep (.heartbeat request) s).jobs)
    (hid : j'.id = j.id) : j'.status = j.status := by
  rcases commit_cases (heartbeat request) s with h | ⟨b,h⟩
  · have hsame : jobStep (.heartbeat request) s = s := h
    rw [hsame] at hj'
    rw [eq_of_key hj' hj hid]
  · rcases heartbeat_ok h with ⟨-,hs⟩ | ⟨-,i,-,hrep,-⟩
    · have hsame : jobStep (.heartbeat request) s = s := hs
      rw [hsame] at hj'
      rw [eq_of_key hj' hj hid]
    · have hev : Evolves (fun a b => b.status = a.status) (fun _ => True) s.jobs
          (jobStep (.heartbeat request) s).jobs := by
        have hkeep : (heartbeatJob request.value i).status = i.status := rfl
        exact evolves_replaced (fun _ => rfl) hkeep hrep
      have hrel := evolves_related hev hj hj' hid
      exact hrel

/-- Over every run of the repository from an empty store, and whatever the next
operation is: a row keeps its place, moves along the allowed transitions with a
growing version and is final once terminal; its lease and completion columns
agree with its status; and a succeeded job that was claimable at some point of
the run has one succeeded attempt, with the last fence its row has held. -/
theorem job_lifecycle (ops : List JobOp) (op : JobOp) :
    let s := run jobStep ops Store.empty
    (∀ j ∈ s.jobs, ∃ j' ∈ (jobStep op s).jobs, j'.id = j.id ∧
      (j' ≠ j → j.version < j'.version) ∧
      (j'.status ≠ j.status → (j.status,j'.status) ∈ allowedTransitions) ∧
      ((∃ request, op = .heartbeat request) → j'.status = j.status) ∧
      (j.status ∈ terminalJobStatuses → j' = j)) ∧
    (∀ j ∈ s.jobs, ColumnsAgree j) ∧
    (∀ j ∈ s.jobs, j.status = .succeeded →
      (run (observe j.id) ops .start).claimableSeen = true →
      ∃ a ∈ s.attempts, (a.tenantId = j.tenantId ∧ a.jobId = j.id ∧ a.status = .succeeded ∧
        (run (observe j.id) ops .start).lastFence = some a.leaseFence) ∧
        ∀ b ∈ s.attempts, b.jobId = j.id → b.status = .succeeded → b = a) := by
  intro s
  refine ⟨fun j hj => ?_,fun j hj => columns_agree hj,fun j hj hs hseen => ?_⟩
  · obtain ⟨j',hj',hid,hnext⟩ := (effect_evolves (jobStep_effect op s)).kept j hj
    refine ⟨j',hj',hid,fun hne => ?_,fun hne => ?_,?_,fun hterm => ?_⟩
    · exact (hnext.resolve_left hne).version
    · rcases hnext with rfl | hadv
      · exact absurd rfl hne
      · exact hadv.transition.resolve_left hne
    · rintro ⟨request,rfl⟩
      exact heartbeat_status request s hj hj' hid
    · exact hnext.resolve_right fun hadv => hadv.live hterm
  · have hsound := history_sound j.id ops
    have hstore : (run (observe j.id) ops .start).store = s := observe_store j.id ops .start
    have hacc := hsound.accounted hseen j (hstore ▸ hj) rfl
    rw [hstore] at hacc
    obtain ⟨a,ha,hst,hl⟩ := (accounted_succeeded hs).mp hacc
    exact ⟨a,ha.mem,⟨ha.tenantId,ha.jobId,hst,hl⟩,fun b hb hbj _ => ha.only b hb hbj⟩

def sampleCommand : AIJobSubmission.CreateAIJobFields where
  tenantId := ⟨0,0,1⟩
  membershipId := ⟨0,0,2⟩
  userId := ⟨0,0,3⟩
  sessionId := ⟨0,0,4⟩
  authVersion := 1
  authzVersion := 1
  idempotencyKey := "submission"

def sampleIds : AIJobSubmission.CreationIds := ⟨⟨0,0,5⟩,⟨0,0,6⟩,⟨0,0,7⟩,⟨0,0,8⟩⟩

def sampleGraph (status : AIJobStatus) (completedAt : Option Time) : NewAIJobGraphFields where
  job := ⟨{AIJobSubmission.submittedJob sampleCommand sampleIds ⟨0,0,9⟩ 0 with
    status := status, completedAt := completedAt},rfl⟩
  grant := ⟨AIJobSubmission.submittedGrant sampleCommand sampleIds 0,rfl⟩
  outbox := ⟨AIJobSubmission.submittedOutbox sampleCommand sampleIds 0,rfl⟩

def queuedGraph : NewAIJobGraph := ⟨sampleGraph .queued none,rfl⟩

def finishedGraph : NewAIJobGraph := ⟨sampleGraph .succeeded (some 0),rfl⟩

theorem finished_without_attempt :
    ¬∀ ops, ∀ j ∈ (run jobStep ops Store.empty).jobs, j.status = .succeeded →
      ∃ a ∈ (run jobStep ops Store.empty).attempts,
        a.jobId = j.id ∧ a.status = .succeeded := by
  intro h
  have hatt : (run jobStep [.addJobGraph finishedGraph 0] Store.empty).attempts.rows = [] :=
    rfl
  have hjob : (run jobStep [.addJobGraph finishedGraph 0] Store.empty).jobs.rows =
      [jobModel finishedGraph.value.job 0] := rfl
  obtain ⟨a,ha,-⟩ := h [.addJobGraph finishedGraph 0] (jobModel finishedGraph.value.job 0)
    (by rw [mem_rows,hjob]; exact List.mem_singleton_self _) rfl
  rw [mem_rows,hatt] at ha
  cases ha

end LawyerAgent.AIJobLifecycle

namespace LawyerAgent.AIJobFencing
open Relational Common AIJobDomain AIJobTables
open AIJobRepository AIJobOperations AIJobLifecycle

/-- The pair `(leaseToken,leaseFence)` is the one stored in the job's row. -/
def CurrentLease (s : Store) (jobId : UUID7) (lease : UUID7 × ℕ) : Prop :=
  ∃ j ∈ s.jobs, j.id = jobId ∧ j.leaseToken = some lease.1 ∧ j.leaseFence = some lease.2

/-- The stored row still carries the token, the fence and the version. -/
def HoldsLease (s : Store) (tenantId jobId leaseToken : UUID7)
    (leaseFence expectedVersion : ℕ) : Prop :=
  ∃ j ∈ s.jobs, leaseHeldBy tenantId jobId leaseToken leaseFence expectedVersion j = true

theorem currentLease_unique {s : Store} {jobId : UUID7} {a b : UUID7 × ℕ}
    (ha : CurrentLease s jobId a) (hb : CurrentLease s jobId b) : a = b := by
  obtain ⟨j,hj,hid,ht,hf⟩ := ha
  obtain ⟨i,hi,hid',ht',hf'⟩ := hb
  obtain rfl := eq_of_key hi hj (hid'.trans hid.symm)
  have h1 : a.1 = b.1 := Option.some.inj (ht.symm.trans ht')
  have h2 : a.2 = b.2 := Option.some.inj (hf.symm.trans hf')
  exact Prod.ext h1 h2

theorem heartbeat_stale (request : FencedHeartbeat) (s : Store)
    (h : ¬HoldsLease s request.value.tenantId request.value.jobId request.value.leaseToken
      request.value.leaseFence request.value.expectedVersion) :
    jobStep (.heartbeat request) s = s := by
  rcases commit_cases (heartbeat request) s with hs | ⟨b,hb⟩
  · exact hs
  · rcases heartbeat_ok hb with ⟨-,hs⟩ | ⟨-,j,hj,hrep,-⟩
    · exact hs
    · exact absurd ⟨j,hrep.mem,(heartbeatGuard_fields hj).1⟩ h

theorem finalize_stale (request : FencedFinalizeSuccess) (s : Store)
    (h : ¬HoldsLease s request.value.tenantId request.value.jobId request.value.leaseToken
      request.value.leaseFence request.value.expectedVersion) :
    jobStep (.finalizeSuccess request) s = s := by
  rcases commit_cases (finalizeSuccess request) s with hs | ⟨b,hb⟩
  · exact hs
  · rcases finalizeSuccess_ok hb with ⟨-,hs⟩ | ⟨-,j,hj,hrep,-⟩
    · exact hs
    · exact absurd ⟨j,hrep.mem,(finalizeGuard_fields hj).1⟩ h

/-- The lease an operation takes on the job, if it is a claim that succeeds. -/
def claimedLease (jobId : UUID7) (op : JobOp) (s : Store) : Option (UUID7 × ℕ) :=
  match op with
  | .claimDueJob request timestamp =>
    match outcome (claimDueJob request timestamp) s with
    | .ok (.claimed e) =>
        if request.value.jobId = jobId then some (e.leaseToken,e.leaseFence) else none
    | _ => none
  | _ => none

def claimedLeases (jobId : UUID7) : List JobOp → Store → List (UUID7 × ℕ)
  | [], _ => []
  | op::ops, s => (claimedLease jobId op s).toList ++ claimedLeases jobId ops (jobStep op s)

theorem claimedLease_some {jobId : UUID7} {op : JobOp} {s : Store} {lease : UUID7 × ℕ}
    (h : claimedLease jobId op s = some lease) :
    CurrentLease (jobStep op s) jobId lease ∧
    (∃ j ∈ s.jobs, j.id = jobId ∧ j.status ∈ claimableStatuses) ∧
    ∃ j ∈ (jobStep op s).jobs, j.id = jobId ∧ j.status ∉ claimableStatuses := by
  cases op with
  | claimDueJob request timestamp =>
    simp only [claimedLease,outcome] at h
    cases hx : claimDueJob request timestamp s with
    | error e => simp [hx,Except.map] at h
    | ok p =>
      obtain ⟨out,s'⟩ := p
      have hstep : jobStep (.claimDueJob request timestamp) s = s' := commit_ok hx
      rcases claimDueJob_ok hx with ⟨rfl,-⟩ | ⟨e,j,rfl,-,ht,hf,hj,hrep,-,-⟩
      · simp [hx,Except.map] at h
      · simp only [hx,Except.map] at h
        split_ifs at h with hid
        obtain rfl := Option.some.inj h
        have hjid := (isJob_id (claimable_isJob hj)).2.trans hid
        rw [hstep]
        refine ⟨⟨_,replaced_claimed hrep,hjid,?_,?_⟩,⟨j,hrep.mem,hjid,claimable_status hj⟩,
          _,replaced_claimed hrep,hjid,?_⟩
        · rw [ht]
          rfl
        · rw [hf]
          rfl
        · simp [claimedJob,claimableStatuses]
  | addJobGraph graph timestamp => cases h
  | heartbeat request => cases h
  | finalizeSuccess request => cases h
  | failJobWithoutAttempt tenantId jobId failureClass failureCode now => cases h
  | cancelClaimableJob tenantId jobId now => cases h

theorem claimedLeases_started (jobId : UUID7) (ops : List JobOp) (s : Store)
    (h : ∃ j ∈ s.jobs, j.id = jobId ∧ j.status ∉ claimableStatuses) :
    claimedLeases jobId ops s = [] := by
  induction ops generalizing s with
  | nil => rfl
  | cons op ops ih =>
    obtain ⟨j,hj,hid,hs⟩ := h
    obtain ⟨j',hj',hk,hnext⟩ := (effect_evolves (jobStep_effect op s)).kept j hj
    have hs' : j'.status ∉ claimableStatuses := fun hc =>
      hs (claimable_source hnext hc ▸ hc)
    have hnone : claimedLease jobId op s = none := by
      by_contra hne
      obtain ⟨lease,hl⟩ := Option.ne_none_iff_exists'.mp hne
      obtain ⟨-,⟨i,hi,hid',hc⟩,-⟩ := claimedLease_some hl
      exact hs (eq_of_key hi hj (hid'.trans hid.symm) ▸ hc)
    rw [claimedLeases,hnone,ih (jobStep op s) ⟨j',hj',hk.trans hid,hs'⟩]
    rfl

theorem claimedLeases_length (jobId : UUID7) (ops : List JobOp) (s : Store) :
    (claimedLeases jobId ops s).length ≤ 1 := by
  induction ops generalizing s with
  | nil => simp [claimedLeases]
  | cons op ops ih =>
    cases h : claimedLease jobId op s with
    | none => simpa [claimedLeases,h] using ih (jobStep op s)
    | some lease =>
      rw [claimedLeases,h,claimedLeases_started jobId ops _ (claimedLease_some h).2.2]
      simp

theorem pairwise_of_length_le_one {α : Type} {R : α → α → Prop} {l : List α}
    (h : l.length ≤ 1) : l.Pairwise R := by
  match l with
  | [] => exact List.Pairwise.nil
  | [a] => exact List.pairwise_singleton R a
  | _::_::_ => simp at h

/-- From any stored state and along any interleaving of the operations on any
jobs: a job has at most one current lease, the fences of its successive claims
increase and each is current when it is taken, and a heartbeat or finalization
that does not carry the stored token, fence and version leaves every table as
it is. -/
theorem lease_fencing (start : Store) (jobId : UUID7) (ops : List JobOp) :
    let s := run jobStep ops start
    (∀ a b, CurrentLease s jobId a → CurrentLease s jobId b → a = b) ∧
    ((claimedLeases jobId ops start).map Prod.snd).Pairwise (· < ·) ∧
    (∀ op lease, claimedLease jobId op s = some lease →
      CurrentLease (jobStep op s) jobId lease) ∧
    (∀ request : FencedHeartbeat,
      ¬HoldsLease s request.value.tenantId request.value.jobId request.value.leaseToken
        request.value.leaseFence request.value.expectedVersion →
      jobStep (.heartbeat request) s = s) ∧
    (∀ request : FencedFinalizeSuccess,
      ¬HoldsLease s request.value.tenantId request.value.jobId request.value.leaseToken
        request.value.leaseFence request.value.expectedVersion →
      jobStep (.finalizeSuccess request) s = s) := by
  intro s
  refine ⟨fun a b => currentLease_unique,?_,fun op lease h => (claimedLease_some h).1,
    fun request h => heartbeat_stale request s h,fun request h => finalize_stale request s h⟩
  apply pairwise_of_length_le_one
  rw [List.length_map]
  exact claimedLeases_length jobId ops start

end LawyerAgent.AIJobFencing
