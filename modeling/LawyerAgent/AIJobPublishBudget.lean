import LawyerAgent.AIJobPublication
import LawyerAgent.AIJobLifecycle

/-!
# Budget of publication attempts

A claim spends an attempt of its row, and only the release of a claim looks at
the limit. A publisher that crashes on the last allowed attempt leaves a row
that the next batch takes over again.
-/

set_option autoImplicit false

namespace LawyerAgent.AIJobPublishBudget
open Relational Common AIJobTables
open AIJobRepository AIJobOutbox
open AIJobPublication Envelope

variable (sha256 : List UInt8 → Digest)

/-- No attempt is spent beyond the budget, and a pending row has some left.
The version stays small with the attempts. -/
structure RowBudget (o : AIJobOutboxModel) : Prop where
  limit : o.maxPublishAttempts = 8
  attempts : o.publishAttemptCount ≤ o.maxPublishAttempts
  pending : o.status = .pending → o.publishAttemptCount < o.maxPublishAttempts
  version : o.version ≤ 2*o.publishAttemptCount+1
  publishing : o.status = .publishing → o.version ≤ 2*o.publishAttemptCount

def WithinBudget (p : Publishers) : Prop := ∀ o ∈ p.store.outbox, RowBudget o

/-- No batch takes over an expired claim of a row whose attempts are used up. -/
def NoneExhausted (op : PublisherOp) (p : Publishers) : Prop :=
  match op with
  | .claimOutboxBatch batch => ∀ o ∈ dueBatch batch p.store.outbox, o.status = .publishing →
      o.publishAttemptCount < o.maxPublishAttempts
  | _ => True

variable {batch : OutboxBatch} {o : AIJobOutboxModel} {p : Publishers}

theorem due_remaining (hb : WithinBudget p) (hg : NoneExhausted (.claimOutboxBatch batch) p)
    (ho : o ∈ dueBatch batch p.store.outbox) :
    o.publishAttemptCount < o.maxPublishAttempts := by
  obtain ⟨hmem,hdue⟩ := mem_dueBatch ho
  rcases dueOutbox_live hdue with hs | hs
  · exact (hb o hmem).pending hs
  · exact hg o ho hs

theorem current_budget (hc : ClaimsSound p) {c : ClaimedOutbox} {k : ℕ} (hk : p.claims[k]? = some c)
    (ho : o ∈ p.store.outbox) (hguard : outboxClaimedBy c o = true) :
    o.publishAttemptCount = c.publishAttemptCount ∧
      o.maxPublishAttempts = c.maxPublishAttempts := by
  obtain ⟨x,hx,hr⟩ := hc c (List.mem_of_getElem? hk)
  obtain ⟨hid,-,-,hversion,-⟩ := outboxClaimedBy_fields hguard
  obtain rfl := eq_of_key hx ho (hr.id.trans hid.symm)
  exact hr.budget hversion

theorem handedOut_budget {o o' : AIJobOutboxModel} (h : HandedOut sha256 batch o o')
    (hb : RowBudget o) (hlt : o.publishAttemptCount < o.maxPublishAttempts) : RowBudget o' := by
  obtain ⟨hv,hs,hcount,hmax⟩ := handedOut_fields sha256 h
  have hversion := hb.version
  refine ⟨hmax.trans hb.limit,?_,fun hp => ?_,?_,fun _ => ?_⟩
  · omega
  · rw [hs] at hp
    cases hp
  · omega
  · omega

theorem ended_budget {o o' : AIJobOutboxModel} (hb : RowBudget o) (hs : o.status = .publishing)
    (hv : o'.version = o.version+1) (hcount : o'.publishAttemptCount = o.publishAttemptCount)
    (hmax : o'.maxPublishAttempts = o.maxPublishAttempts) (hs' : o'.status ≠ .publishing)
    (hp : o'.status = .pending → o.publishAttemptCount < o.maxPublishAttempts) :
    RowBudget o' := by
  have hversion := hb.publishing hs
  have hattempts := hb.attempts
  refine ⟨hmax.trans hb.limit,by omega,fun hpend => ?_,by omega,fun h => absurd h hs'⟩
  have hlt := hp hpend
  omega

theorem effect_budget {op : PublisherOp} {p p' : Publishers}
    (h : PublisherEffect sha256 op p p') (hc : ClaimsSound p) (hg : NoneExhausted op p)
    (hb : WithinBudget p) : WithinBudget p' := by
  intro o' ho'
  cases h with
  | unchanged => exact hb o' ho'
  | handedOut batch claims p s' effect frame =>
    rcases effect.came o' ho' with ⟨hold,-⟩ | ⟨m,hm,hout⟩
    · exact hb o' hold
    · exact handedOut_budget sha256 hout (hb m (mem_dueBatch hm).1) (due_remaining hb hg hm)
  | published k now claim x p s' held guard row frame =>
    rcases (replaced_mem row).mp ho' with rfl | ⟨hold,-⟩
    · exact ended_budget (hb x row.mem) (outboxClaimedBy_fields guard).2.2.2.2 rfl rfl rfl
        (by simp [publishedOutbox]) fun hp => by cases hp
    · exact hb o' hold
  | blocked k errorCode now claim x p s' held guard exhausted row frame =>
    rcases (replaced_mem row).mp ho' with rfl | ⟨hold,-⟩
    · exact ended_budget (hb x row.mem) (outboxClaimedBy_fields guard).2.2.2.2 rfl rfl rfl
        (by simp [blockedOutbox]) fun hp => by cases hp
    · exact hb o' hold
  | released k errorCode now claim x p s' held guard remaining row frame =>
    rcases (replaced_mem row).mp ho' with rfl | ⟨hold,-⟩
    · obtain ⟨hcount,hmax⟩ := current_budget hc held row.mem guard
      exact ended_budget (hb x row.mem) (outboxClaimedBy_fields guard).2.2.2.2 rfl rfl rfl
        (by simp [releasedOutbox]) fun _ => by omega
    · exact hb o' hold
  | job op p s' effect =>
    rcases jobEffect_outbox effect with hsame | ⟨graph,hins⟩
    · exact hb o' (hsame ▸ ho')
    · rcases (inserted_mem hins).mp ho' with rfl | hold
      · exact ⟨rfl,Nat.zero_le 8,fun _ => Nat.zero_lt_succ 7,le_rfl,fun hs => by cases hs⟩
      · exact hb o' hold

theorem run_budget (ops : List PublisherOp)
    (hg : Along (publisherStep sha256) NoneExhausted ops .start) :
    WithinBudget (run (publisherStep sha256) ops .start) := by
  have hinv : ClaimsSound (run (publisherStep sha256) ops .start) ∧
      WithinBudget (run (publisherStep sha256) ops .start) := by
    refine guarded_invariant (I := fun p => ClaimsSound p ∧ WithinBudget p)
      (fun op p hgp hp => ?_) ops .start hg ⟨?_,?_⟩
    · exact ⟨step_claimsSound sha256 op p hp.1,
        effect_budget sha256 (publisherStep_effect sha256 op p) hp.1 hgp hp.2⟩
    · intro c hc
      cases hc
    · intro o ho
      exact absurd ho (not_mem_empty o)
  exact hinv.2

theorem release_blocks (hc : ClaimsSound p) {k : ℕ} {c : ClaimedOutbox}
    (errorCode : PublisherErrorCode) (now : Time) (hb : RowBudget o) (hk : p.claims[k]? = some c)
    (ho : o ∈ p.store.outbox) (hguard : outboxClaimedBy c o = true)
    (hfull : o.maxPublishAttempts ≤ o.publishAttemptCount) :
    blockedOutbox errorCode o ∈
      (publisherStep sha256 (.releaseOrBlock k errorCode now) p).store.outbox := by
  obtain ⟨hcount,hmax⟩ := current_budget hc hk ho hguard
  obtain ⟨hid,-⟩ := outboxClaimedBy_fields hguard
  have hx : c.maxPublishAttempts ≤ c.publishAttemptCount := by omega
  have hp : ∀ x, outboxClaimedBy c x = true → x.id = c.id := fun x h =>
    (outboxClaimedBy_fields h).1
  have hfits : ∀ x ∈ p.store.outbox, outboxClaimedBy c x = true →
      Fits aiJobOutbox x (blockedOutbox errorCode x) := by
    intro x hxo hxc
    obtain rfl := eq_of_key hxo ho ((hp x hxc).trans hid.symm)
    refine ⟨?_,rfl,fun _ => rfl,fun _ => rfl⟩
    have hold := checked ho
    have hversion := hb.version
    have hattempts := hb.attempts
    have hlimit := hb.limit
    simp only [aiJobOutbox,Bool.and_eq_true,decide_eq_true_eq] at hold
    simp only [aiJobOutbox,blockedOutbox,Bool.and_eq_true,decide_eq_true_eq]
    have hsmall : x.version+1 ≤ integerMax := by
      simp only [integerMax]
      omega
    simpa [hsmall] using hold.1.1.1
  obtain ⟨t,ht⟩ := updateRows_succeeds AIJobFailure.integrityError p.store.outbox hfits
  have hrows := (updateRows_ok.mp ht).2
  have hcommit : commit (releaseOrBlock c errorCode now) p.store =
      {p.store with outbox := t} := by
    apply commit_ok (a := p.store.outbox.rows.countP (outboxClaimedBy c) == 1)
    rw [releaseOrBlock,if_pos hx,bind_ok]
    exact ⟨_,_,zoom_ok.mpr ⟨t,ht,rfl⟩,rfl⟩
  simp only [publisherStep,hk,hcommit]
  rw [mem_rows,hrows]
  exact List.mem_map.mpr ⟨o,ho,by rw [if_pos hguard]⟩

theorem claimedOutbox_complete {e : AIJobEnvelope} {digest : Digest}
    (h : signedReference o = some (e.value,digest)) (ht : o.claimToken.isSome = true)
    (hf : o.claimFence.isSome = true) : ∃ c, claimedOutbox o = .ok c := by
  obtain ⟨token,ht⟩ := Option.isSome_iff_exists.mp ht
  obtain ⟨fence,hf⟩ := Option.isSome_iff_exists.mp hf
  simp only [signedReference,Option.bind_eq_bind,Option.bind_eq_some_iff,
    Option.some.injEq,Prod.mk.injEq] at h
  obtain ⟨messageId,hm,correlationId,hc,nonce,hn,signature,hs,issuedAt,hi,d,hd,he,-⟩ := h
  have hpost := postInit_value e
  rw [← he] at hpost
  cases hx : claimedOutbox o with
  | ok c => exact ⟨c,rfl⟩
  | error failure => simp [claimedOutbox,hm,hc,hn,hs,hi,hd,ht,hf,hpost] at hx

/-- Nothing but the integer range of its columns limits how often an expired
claim is taken over: the batch that finds the row hands it out once more. -/
theorem expired_taken_over {e : AIJobEnvelope} {digest : Digest}
    (hdue : dueBatch batch p.store.outbox = [o]) (href : signedReference o = some (e.value,digest))
    (hversion : o.version < integerMax) (hcount : o.publishAttemptCount < integerMax)
    (hfence : o.claimFence.getD 0 < integerMax) :
    (publisherStep sha256 (.claimOutboxBatch batch) p).store.outbox.rows =
      p.store.outbox.rows.map fun x => if x.id = o.id then publishingOutbox batch 0 o else x := by
  have hmem : o ∈ p.store.outbox := (mem_dueBatch (hdue ▸ List.mem_singleton_self o)).1
  have hsigned : signedOutbox sha256 (batch.envelopeFactory 0) o = .ok o := by
    obtain ⟨m,hm⟩ := Option.isSome_iff_exists.mp
      (signedReference_isSome (o := o) (by rw [href]; rfl))
    simp only [signedOutbox,hm]
  obtain ⟨c,hc⟩ := claimedOutbox_complete (o := publishingOutbox batch 0 o) href rfl rfl
  have hfits : ∀ x ∈ p.store.outbox, (x.id == o.id) = true →
      Fits aiJobOutbox x (publishingOutbox batch 0 o) := by
    intro x hx hxid
    have hid : x.id = o.id := by simpa using hxid
    obtain rfl := eq_of_key hx hmem hid
    refine ⟨?_,rfl,fun _ => rfl,fun _ => rfl⟩
    have hold := checked hmem
    simp only [aiJobOutbox,Bool.and_eq_true,decide_eq_true_eq] at hold
    simp only [aiJobOutbox,publishingOutbox,Bool.and_eq_true,decide_eq_true_eq,Option.all_some]
    refine ⟨⟨⟨⟨hold.1.1.1.1,?_⟩,by simp⟩,?_⟩,?_⟩
    · omega
    · omega
    · omega
  obtain ⟨t,ht⟩ := updateRows_succeeds AIJobFailure.integrityError p.store.outbox hfits
  have hclaim : claimOutboxBatch sha256 batch p.store =
      .ok ([c],{p.store with outbox := t}) := by
    rw [claimOutboxBatch,bind_ok]
    refine ⟨_,_,read_ok.mpr ⟨rfl,rfl⟩,?_⟩
    rw [hdue,claimOutboxRows,bind_ok]
    refine ⟨_,_,ofExcept_ok.mpr ⟨hsigned,rfl⟩,?_⟩
    rw [bind_ok]
    refine ⟨_,_,ofExcept_ok.mpr ⟨hc,rfl⟩,?_⟩
    rw [bind_ok]
    refine ⟨_,_,zoom_ok.mpr ⟨t,ht,rfl⟩,?_⟩
    rw [bind_ok]
    exact ⟨[],_,rfl,rfl⟩
  simp only [publisherStep,hclaim]
  rw [(updateRows_ok.mp ht).2]
  refine List.map_congr_left fun x _ => ?_
  simp only [beq_iff_eq]

def sampleNonce : String := String.ofList (List.replicate 22 'A')

def sampleSignature : String := "ed25519.dev." ++ String.ofList (List.replicate 86 'p')

theorem sample_texts : nonceOk sampleNonce = true ∧
    (signatureKid sampleSignature).isSome = true := by
  decide

def sampleEnvelope (candidate : ClaimCandidate) : AIJobEnvelope where
  value := {
    schemaVersion := 1
    messageId := ⟨0,0,10⟩
    jobId := candidate.jobId
    tenantId := candidate.tenantId
    correlationId := candidate.correlationId
    issuedAt := 0
    nonce := sampleNonce
    signature := sampleSignature}
  valid := by simp [aiJobEnvelopeChecks,firstError,sample_texts.1,sample_texts.2]

/-- The `k`-th batch, a minute after the one before it. -/
def crashedBatch (k : ℕ) : OutboxBatch where
  now := seconds (60*k)
  claimExpiresAt := seconds (60*k+30)
  workerRef := "publisher"
  limit := 1
  locked := fun _ => false
  envelopeFactory := fun _ candidate => .ok (sampleEnvelope candidate)
  newToken := fun _ => ⟨0,1,BitVec.ofNat 62 k⟩

/-- One row, claimed by the `k`-th batch and left to expire. -/
structure Crashed (k : ℕ) (p : Publishers) (o : AIJobOutboxModel) : Prop where
  rows : p.store.outbox.rows = [o]
  status : o.status = .publishing
  expiry : o.claimExpiresAt = some (seconds (60*k+30))
  attempts : o.publishAttemptCount = k+1
  limit : o.maxPublishAttempts = 8
  version : o.version = k+2
  fence : o.claimFence = some (k+1)
  reference : ∃ e : AIJobEnvelope, ∃ digest, signedReference o = some (e.value,digest)

theorem crashed_expired (k : ℕ) : seconds (60*k+30) < (crashedBatch (k+1)).now := by
  have hlt : (60*(k : ℤ)+30)*1000000 < 60*((k+1 : ℕ) : ℤ)*1000000 := by omega
  simpa only [seconds,crashedBatch] using hlt

theorem crashed_due {k : ℕ} (h : Crashed k p o) :
    dueBatch (crashedBatch (k+1)) p.store.outbox = [o] := by
  have hdue : dueOutbox (crashedBatch (k+1)).now o = true := by
    have hexpired := crashed_expired k
    unfold dueOutbox
    rw [h.expiry,h.status,Option.any_some,decide_eq_true hexpired]
    rfl
  have hlimit : (crashedBatch (k+1)).limit = 1 := rfl
  have hlocked : (crashedBatch (k+1)).locked = fun _ => false := rfl
  simp only [dueBatch,selectRows,h.rows,hdue,hlocked,hlimit,Bool.not_false,Bool.and_self,
    List.filter_cons_of_pos,List.filter_nil,List.insertionSort_cons,List.insertionSort_nil,
    List.orderedInsert_nil,List.take_succ_cons,List.take_nil]

theorem crashed_again {k : ℕ} (hk : k < 100) (h : Crashed k p o) : Crashed (k+1)
      (publisherStep sha256 (.claimOutboxBatch (crashedBatch (k+1))) p)
      (publishingOutbox (crashedBatch (k+1)) 0 o) := by
  obtain ⟨e,digest,href⟩ := h.reference
  have hfence : o.claimFence.getD 0 = k+1 := by rw [h.fence]; rfl
  have hrows := expired_taken_over sha256 (crashed_due h) href
    (by rw [h.version,integerMax]; omega) (by rw [h.attempts,integerMax]; omega)
    (by rw [hfence,integerMax]; omega)
  refine ⟨?_,rfl,rfl,?_,h.limit,?_,?_,e,digest,href⟩
  · rw [hrows,h.rows]
    simp only [List.map_cons,List.map_nil,if_true]
  · change o.publishAttemptCount+1 = _
    rw [h.attempts]
  · change o.version+1 = _
    rw [h.version]
  · change some (o.claimFence.getD 0+1) = _
    rw [hfence]

def firstClaim : Publishers := run (publisherStep fun _ => 0)
  [.job (.addJobGraph AIJobLifecycle.queuedGraph 0),.claimOutboxBatch (crashedBatch 0)] .start

theorem firstClaim_columns : firstClaim.store.outbox.rows.map (fun o => decide
    (o.status = .publishing ∧ o.claimExpiresAt = some (seconds 30) ∧
      o.publishAttemptCount = 1 ∧ o.maxPublishAttempts = 8 ∧ o.version = 2 ∧
      o.claimFence = some 1)) = [true] := by
  decide +kernel

theorem firstClaim_reference : firstClaim.store.outbox.rows.map signedReference =
    [some ((sampleEnvelope ⟨⟨0,0,1⟩,⟨0,0,5⟩,⟨0,0,6⟩,1⟩).value,0)] := by
  decide

theorem crashed_first : ∃ o, Crashed 0 firstClaim o := by
  obtain ⟨o,hrows,ho⟩ := List.map_eq_singleton_iff.mp firstClaim_columns
  have hr := firstClaim_reference
  rw [hrows,List.map_singleton,List.singleton_inj] at hr
  obtain ⟨hs,he,hc,hl,hv,hf⟩ := of_decide_eq_true ho
  exact ⟨o,hrows,hs,he,hc,hl,hv,hf,_,_,hr⟩

def crashedRun (n : ℕ) : List PublisherOp :=
  (List.range n).map fun k => .claimOutboxBatch (crashedBatch (k+1))

theorem crashedRun_attempts (n : ℕ) (hn : n < 100) :
    ∃ o, Crashed n (run (publisherStep fun _ => 0) (crashedRun n) firstClaim) o := by
  induction n with
  | zero => exact crashed_first
  | succ n ih =>
    obtain ⟨o,ho⟩ := ih (by omega)
    have hsplit : crashedRun (n+1) =
        crashedRun n ++ [.claimOutboxBatch (crashedBatch (n+1))] := by
      simp [crashedRun,List.range_succ]
    rw [hsplit,run_append]
    exact ⟨_,crashed_again _ (by omega) ho⟩

/-- In a run in which no batch takes over an expired claim of a used-up row, the
attempts stay within the budget in every state; a used-up row is not pending,
no such batch touches it, and its current claim, once released, blocks it. -/
theorem publish_budget (ops : List PublisherOp)
    (hg : Along (publisherStep sha256) NoneExhausted ops .start) :
    let p := run (publisherStep sha256) ops .start
    ∀ o ∈ p.store.outbox, o.publishAttemptCount ≤ o.maxPublishAttempts ∧
      (o.maxPublishAttempts ≤ o.publishAttemptCount →
        o.status ≠ .pending ∧
        (∀ batch, NoneExhausted (.claimOutboxBatch batch) p →
          o ∈ (publisherStep sha256 (.claimOutboxBatch batch) p).store.outbox) ∧
        ∀ k c errorCode now, p.claims[k]? = some c → outboxClaimedBy c o = true →
          blockedOutbox errorCode o ∈
            (publisherStep sha256 (.releaseOrBlock k errorCode now) p).store.outbox) := by
  intro p o ho
  have hbudget : WithinBudget p := run_budget sha256 ops hg
  have hclaims : ClaimsSound p := run_claimsSound sha256 ops
  have hb := hbudget o ho
  refine ⟨hb.attempts,fun hfull => ⟨fun hs => ?_,fun batch hbatch => ?_,
    fun k c errorCode now hk hguard =>
      release_blocks sha256 hclaims errorCode now hb hk ho hguard hfull⟩⟩
  · have hlt := hb.pending hs
    omega
  · have heff := publisherStep_effect sha256 (.claimOutboxBatch batch) p
    generalize publisherStep sha256 (.claimOutboxBatch batch) p = p' at heff
    cases heff with
    | unchanged => exact ho
    | handedOut batch claims p s' effect frame =>
      apply effect.kept o ho
      intro m hm hid
      obtain rfl := eq_of_key (mem_dueBatch hm).1 ho hid
      have hlt := due_remaining hbudget hbatch hm
      omega

theorem firstClaim_guarded : Along (publisherStep fun _ => 0) NoneExhausted
    [.job (.addJobGraph AIJobLifecycle.queuedGraph 0),.claimOutboxBatch (crashedBatch 0)]
    .start := by
  refine ⟨trivial,fun o ho hs => ?_,trivial⟩
  have hstatus : (dueBatch (crashedBatch 0) (publisherStep (fun _ => 0)
      (.job (.addJobGraph AIJobLifecycle.queuedGraph 0)) .start).store.outbox).map
      (fun o => o.status) = [.pending] := by
    decide
  have hmem := List.mem_map_of_mem (f := fun o => o.status) ho
  rw [hstatus,List.mem_singleton,hs] at hmem
  cases hmem

theorem firstClaim_budget : ∃ o ∈ firstClaim.store.outbox,
    o.publishAttemptCount = 1 ∧ o.publishAttemptCount ≤ o.maxPublishAttempts := by
  obtain ⟨o,ho⟩ := crashed_first
  have hmem : o ∈ firstClaim.store.outbox := by
    rw [mem_rows,ho.rows]
    exact List.mem_singleton_self o
  exact ⟨o,hmem,ho.attempts,(publish_budget (fun _ => 0) _ firstClaim_guarded o hmem).1⟩

/-- Nine publishers, each of which leaves its claim to expire. -/
theorem crashed_over_budget :
    ¬∀ sha256 ops, ∀ o ∈ (run (publisherStep sha256) ops .start).store.outbox,
      o.publishAttemptCount ≤ o.maxPublishAttempts := by
  intro h
  obtain ⟨o,ho⟩ := crashedRun_attempts 8 (by omega)
  rw [firstClaim,← run_append] at ho
  have hle := h (fun _ => 0) _ o (by rw [mem_rows,ho.rows]; exact List.mem_singleton_self o)
  rw [ho.attempts,ho.limit] at hle
  omega

end LawyerAgent.AIJobPublishBudget
