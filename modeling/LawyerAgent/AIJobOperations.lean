import LawyerAgent.AIJobRepository

/-!
# Operations on jobs

Every repository operation that writes a job either changes nothing or has
one of the effects below; each operation has one lemma that says which.
-/

set_option autoImplicit false

namespace LawyerAgent.AIJobOperations
open Relational Common AIJobDomain AIJobTables
open AIJobRepository

inductive JobOp where
  | addJobGraph (graph : NewAIJobGraph) (currentTimestamp : Time)
  | claimDueJob (request : ClaimJobRequest) (currentTimestamp : Time)
  | heartbeat (request : FencedHeartbeat)
  | finalizeSuccess (request : FencedFinalizeSuccess)
  | failJobWithoutAttempt (tenantId jobId : UUID7) (failureClass failureCode : String)
      (now : Time)
  | cancelClaimableJob (tenantId jobId : UUID7) (now : Time)

def jobStep : JobOp → Store → Store
  | .addJobGraph graph timestamp => commit (addJobGraph graph timestamp)
  | .claimDueJob request timestamp => commit (claimDueJob request timestamp)
  | .heartbeat request => commit (heartbeat request)
  | .finalizeSuccess request => commit (finalizeSuccess request)
  | .failJobWithoutAttempt tenantId jobId failureClass failureCode now =>
      commit (failJobWithoutAttempt tenantId jobId failureClass failureCode now)
  | .cancelClaimableJob tenantId jobId now => commit (cancelClaimableJob tenantId jobId now)

variable {j : AIJobModel} {jobId tenantId : UUID7} {s s' : Store}

theorem isJob_id (h : isJob tenantId jobId j = true) :
    j.tenantId = tenantId ∧ j.id = jobId := by
  simpa [isJob] using h

theorem jobUpdate_ok {p : AIJobModel → Bool} {f : AIJobModel → AIJobModel} {n : ℕ}
    (h : zoom jobsOf (updateRows AIJobFailure.integrityError p f) s = .ok (n,s'))
    (hp : ∀ j, p j = true → isJob tenantId jobId j = true) (hf : ∀ j, (f j).id = j.id) :
    (n = 0 ∧ s' = s ∧ ∀ j ∈ s.jobs, p j = false) ∨
    (n = 1 ∧ ∃ j, p j = true ∧ Replaced j (f j) s.jobs s'.jobs ∧
      s' = {s with jobs := s'.jobs}) := by
  obtain ⟨t,ht,rfl⟩ := zoom_ok.mp h
  obtain ⟨hn,hrows⟩ := updateRows_ok.mp ht
  have hkey := update_keyed (S := aiJobs) jobId (fun j hj => (isJob_id (hp j hj)).2) hf hrows
  rcases hkey with ⟨h0,rfl,hnone⟩ | ⟨h1,j,hj,hrep⟩
  · exact Or.inl ⟨hn.symm.trans h0,jobsOf.set_get s,hnone⟩
  · exact Or.inr ⟨hn.symm.trans h1,j,hj,hrep,rfl⟩

theorem claimable_isJob {r : ClaimJobFields} (h : claimable r j = true) :
    isJob r.tenantId r.jobId j = true := by
  simp only [claimable,Bool.and_eq_true] at h
  exact h.1.1.1.1

theorem claimable_status {r : ClaimJobFields} (h : claimable r j = true) :
    j.status ∈ claimableStatuses := by
  simp only [claimable,Bool.and_eq_true,decide_eq_true_eq] at h
  exact h.1.1.1.2

theorem leaseHeldBy_fields {tenantId jobId leaseToken : UUID7} {fence version : ℕ}
    (h : leaseHeldBy tenantId jobId leaseToken fence version j = true) :
    isJob tenantId jobId j = true ∧ j.leaseToken = some leaseToken ∧
    j.leaseFence = some fence ∧ j.version = version := by
  simpa [leaseHeldBy,and_assoc] using h

theorem heartbeatGuard_fields {r : FencedHeartbeatFields} (h : heartbeatGuard r j = true) :
    leaseHeldBy r.tenantId r.jobId r.leaseToken r.leaseFence r.expectedVersion j = true ∧
    j.status ∈ leaseHoldingStatuses := by
  simpa [heartbeatGuard] using h

theorem finalizeGuard_fields {r : FencedFinalizeSuccessFields} (h : finalizeGuard r j = true) :
    leaseHeldBy r.tenantId r.jobId r.leaseToken r.leaseFence r.expectedVersion j = true ∧
    j.status = .running := by
  simpa [finalizeGuard] using h

theorem unstarted_fields (h : unstarted tenantId jobId j = true) :
    isJob tenantId jobId j = true ∧ j.status ∈ claimableStatuses := by
  simp only [unstarted,Bool.and_eq_true,decide_eq_true_eq] at h
  exact h.1.1

def attemptsFinalized (r : FencedFinalizeSuccessFields) (t : Table aiJobAttempts) :
    List AIJobAttemptModel :=
  t.rows.map fun a => if finalizedAttemptGuard r a then succeededAttempt r a else a

inductive JobEffect (s s' : Store) : Prop where
  | unchanged (same : s' = s)
  | added (graph : NewAIJobGraph) (timestamp : Time)
      (job : Inserted (jobModel graph.value.job timestamp) s.jobs s'.jobs)
      (grant : Inserted (grantModel graph.value.grant) s.grants s'.grants)
      (outbox : Inserted (outboxModel graph.value) s.outbox s'.outbox)
      (frame : s'.attempts = s.attempts ∧ s'.inbox = s.inbox)
  | claimed (r : ClaimJobFields) (timestamp : Time) (j : AIJobModel)
      (guard : claimable r j = true)
      (job : Replaced j (claimedJob r j) s.jobs s'.jobs)
      (attempt : Inserted (attemptModel r timestamp) s.attempts s'.attempts)
      (frame : s' = {s with jobs := s'.jobs, attempts := s'.attempts})
  | beaten (r : FencedHeartbeatFields) (j : AIJobModel)
      (guard : heartbeatGuard r j = true)
      (job : Replaced j (heartbeatJob r j) s.jobs s'.jobs)
      (frame : s' = {s with jobs := s'.jobs})
  | finalized (r : FencedFinalizeSuccessFields) (j : AIJobModel)
      (guard : finalizeGuard r j = true)
      (job : Replaced j (finalizedJob r j) s.jobs s'.jobs)
      (attempts : s'.attempts.rows = attemptsFinalized r s.attempts)
      (frame : s' = {s with jobs := s'.jobs, attempts := s'.attempts})
  | ended (tenantId jobId : UUID7) (j j' : AIJobModel)
      (guard : unstarted tenantId jobId j = true)
      (target : (∃ c d now, j' = failedJob c d now j) ∨ ∃ now, j' = cancelledJob now j)
      (job : Replaced j j' s.jobs s'.jobs)
      (frame : s' = {s with jobs := s'.jobs})

theorem addJobGraph_ok {graph : NewAIJobGraph} {timestamp : Time}
    (h : addJobGraph graph timestamp s = .ok ((),s')) :
    Inserted (jobModel graph.value.job timestamp) s.jobs s'.jobs ∧
    Inserted (grantModel graph.value.grant) s.grants s'.grants ∧
    Inserted (outboxModel graph.value) s.outbox s'.outbox ∧
    s'.attempts = s.attempts ∧ s'.inbox = s.inbox := by
  obtain ⟨_,s₁,h₁,h⟩ := bind_ok.mp h
  obtain ⟨_,s₂,h₂,h₃⟩ := bind_ok.mp h
  obtain ⟨t₁,ht₁,rfl⟩ := zoom_ok.mp h₁
  obtain ⟨t₂,ht₂,rfl⟩ := zoom_ok.mp h₂
  obtain ⟨t₃,ht₃,rfl⟩ := zoom_ok.mp h₃
  rw [insertRow_ok] at ht₁ ht₂ ht₃
  exact ⟨ht₁,ht₂,ht₃,rfl,rfl⟩

theorem claimDueJob_ok {request : ClaimJobRequest} {timestamp : Time} {out : ClaimOutcome}
    (h : claimDueJob request timestamp s = .ok (out,s')) :
    (out = .rejected "job_not_claimable" ∧ s' = s ∧
      ∀ j ∈ s.jobs, claimable request.value j = false) ∨
    ∃ e j, out = .claimed e ∧ e.attemptId = request.value.attemptId ∧
      e.leaseToken = request.value.leaseToken ∧ e.leaseFence = request.value.leaseFence ∧
      claimable request.value j = true ∧
      Replaced j (claimedJob request.value j) s.jobs s'.jobs ∧
      Inserted (attemptModel request.value timestamp) s.attempts s'.attempts ∧
      s' = {s with jobs := s'.jobs, attempts := s'.attempts} := by
  obtain ⟨n,s₁,h₁,hk⟩ := bind_ok.mp h
  rcases jobUpdate_ok h₁ (fun _ => claimable_isJob) (fun _ => rfl) with
    ⟨rfl,rfl,hnone⟩ | ⟨rfl,j,hj,hrep,hs₁⟩
  · left
    rw [if_pos (by decide)] at hk
    obtain ⟨rfl,rfl⟩ := pure_ok.mp hk
    exact ⟨rfl,rfl,hnone⟩
  · right
    rw [if_neg (by decide)] at hk
    obtain ⟨_,s₂,h₂,hk⟩ := bind_ok.mp hk
    obtain ⟨t,ht,rfl⟩ := zoom_ok.mp h₂
    rw [insertRow_ok] at ht
    obtain ⟨_,_,hr,hk⟩ := bind_ok.mp hk
    obtain ⟨-,rfl⟩ := read_ok.mp hr
    obtain ⟨_,_,hm,hk⟩ := bind_ok.mp hk
    obtain ⟨-,rfl⟩ := orFail_ok.mp hm
    obtain ⟨_,_,he,hk⟩ := bind_ok.mp hk
    obtain ⟨-,rfl⟩ := ofExcept_ok.mp he
    obtain ⟨rfl,rfl⟩ := pure_ok.mp hk
    refine ⟨_,j,rfl,rfl,rfl,rfl,hj,hrep,?_,?_⟩
    · rw [hs₁] at ht
      exact ht
    · rw [hs₁]
      rfl

theorem heartbeat_ok {request : FencedHeartbeat} {b : Bool} (h : heartbeat request s = .ok (b,s')) :
    (b = false ∧ s' = s) ∨
    (b = true ∧ ∃ j, heartbeatGuard request.value j = true ∧
      Replaced j (heartbeatJob request.value j) s.jobs s'.jobs ∧
      s' = {s with jobs := s'.jobs}) := by
  obtain ⟨n,s₁,h₁,hk⟩ := bind_ok.mp h
  obtain ⟨rfl,rfl⟩ := pure_ok.mp hk
  rcases jobUpdate_ok h₁ (fun j hj => (leaseHeldBy_fields (heartbeatGuard_fields hj).1).1)
    (fun _ => rfl) with ⟨rfl,rfl,-⟩ | ⟨rfl,j,hj,hrep,hs⟩
  · exact Or.inl ⟨rfl,rfl⟩
  · exact Or.inr ⟨rfl,j,hj,hrep,hs⟩

theorem finalizeSuccess_ok {request : FencedFinalizeSuccess} {b : Bool}
    (h : finalizeSuccess request s = .ok (b,s')) :
    (b = false ∧ s' = s) ∨
    (b = true ∧ ∃ j, finalizeGuard request.value j = true ∧
      Replaced j (finalizedJob request.value j) s.jobs s'.jobs ∧
      s'.attempts.rows = attemptsFinalized request.value s.attempts ∧
      s' = {s with jobs := s'.jobs, attempts := s'.attempts}) := by
  obtain ⟨n,s₁,h₁,hk⟩ := bind_ok.mp h
  rcases jobUpdate_ok h₁ (fun j hj => (leaseHeldBy_fields (finalizeGuard_fields hj).1).1)
    (fun _ => rfl) with ⟨rfl,rfl,-⟩ | ⟨rfl,j,hj,hrep,hs₁⟩
  · rw [if_pos (by decide)] at hk
    obtain ⟨rfl,rfl⟩ := pure_ok.mp hk
    exact Or.inl ⟨rfl,rfl⟩
  · right
    rw [if_neg (by decide)] at hk
    obtain ⟨m,s₂,h₂,hk⟩ := bind_ok.mp hk
    obtain ⟨rfl,rfl⟩ := pure_ok.mp hk
    obtain ⟨t,ht,rfl⟩ := zoom_ok.mp h₂
    obtain ⟨-,hrows⟩ := updateRows_ok.mp ht
    refine ⟨rfl,j,hj,hrep,?_,?_⟩
    · rw [hs₁] at hrows
      exact hrows
    · rw [hs₁]
      rfl

theorem failJobWithoutAttempt_ok {failureClass failureCode : String} {now : Time} {b : Bool}
    (h : failJobWithoutAttempt tenantId jobId failureClass failureCode now s = .ok (b,s')) :
    (b = false ∧ s' = s) ∨
    (b = true ∧ ∃ j, unstarted tenantId jobId j = true ∧
      Replaced j (failedJob failureClass failureCode now j) s.jobs s'.jobs ∧
      s' = {s with jobs := s'.jobs}) := by
  obtain ⟨n,s₁,h₁,hk⟩ := bind_ok.mp h
  obtain ⟨rfl,rfl⟩ := pure_ok.mp hk
  rcases jobUpdate_ok h₁ (fun j hj => (unstarted_fields hj).1) (fun _ => rfl) with
    ⟨rfl,rfl,-⟩ | ⟨rfl,j,hj,hrep,hs⟩
  · exact Or.inl ⟨rfl,rfl⟩
  · exact Or.inr ⟨rfl,j,hj,hrep,hs⟩

theorem cancelClaimableJob_ok {now : Time} {b : Bool}
    (h : cancelClaimableJob tenantId jobId now s = .ok (b,s')) :
    (b = false ∧ s' = s) ∨
    (b = true ∧ ∃ j, unstarted tenantId jobId j = true ∧
      Replaced j (cancelledJob now j) s.jobs s'.jobs ∧ s' = {s with jobs := s'.jobs}) := by
  obtain ⟨n,s₁,h₁,hk⟩ := bind_ok.mp h
  obtain ⟨rfl,rfl⟩ := pure_ok.mp hk
  rcases jobUpdate_ok h₁ (fun j hj => (unstarted_fields hj).1) (fun _ => rfl) with
    ⟨rfl,rfl,-⟩ | ⟨rfl,j,hj,hrep,hs⟩
  · exact Or.inl ⟨rfl,rfl⟩
  · exact Or.inr ⟨rfl,j,hj,hrep,hs⟩

theorem commit_effect {α : Type} {x : StoreTx α} (h : ∀ a s', x s = .ok (a,s') → JobEffect s s') :
    JobEffect s (commit x s) := by
  rcases commit_cases x s with hs | ⟨a,hs⟩
  · exact .unchanged hs
  · exact h a _ hs

theorem jobStep_effect (op : JobOp) (s : Store) : JobEffect s (jobStep op s) := by
  cases op with
  | addJobGraph graph timestamp =>
    refine commit_effect fun _ _ h => ?_
    obtain ⟨hjob,hgrant,houtbox,hframe⟩ := addJobGraph_ok h
    exact .added graph timestamp hjob hgrant houtbox hframe
  | claimDueJob request timestamp =>
    refine commit_effect fun _ _ h => ?_
    rcases claimDueJob_ok h with ⟨-,hs,-⟩ | ⟨_,j,-,-,-,-,hj,hrep,hins,hs⟩
    · exact .unchanged hs
    · exact .claimed _ _ j hj hrep hins hs
  | heartbeat request =>
    refine commit_effect fun _ _ h => ?_
    rcases heartbeat_ok h with ⟨-,hs⟩ | ⟨-,j,hj,hrep,hs⟩
    · exact .unchanged hs
    · exact .beaten _ j hj hrep hs
  | finalizeSuccess request =>
    refine commit_effect fun _ _ h => ?_
    rcases finalizeSuccess_ok h with ⟨-,hs⟩ | ⟨-,j,hj,hrep,hatt,hs⟩
    · exact .unchanged hs
    · exact .finalized _ j hj hrep hatt hs
  | failJobWithoutAttempt tenantId jobId failureClass failureCode now =>
    refine commit_effect fun _ _ h => ?_
    rcases failJobWithoutAttempt_ok h with ⟨-,hs⟩ | ⟨-,j,hj,hrep,hs⟩
    · exact .unchanged hs
    · exact .ended _ _ j _ hj (Or.inl ⟨_,_,_,rfl⟩) hrep hs
  | cancelClaimableJob tenantId jobId now =>
    refine commit_effect fun _ _ h => ?_
    rcases cancelClaimableJob_ok h with ⟨-,hs⟩ | ⟨-,j,hj,hrep,hs⟩
    · exact .unchanged hs
    · exact .ended _ _ j _ hj (Or.inr ⟨_,rfl⟩) hrep hs

end LawyerAgent.AIJobOperations
