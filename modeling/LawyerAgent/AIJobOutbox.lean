import LawyerAgent.AIJobOperations
import LawyerAgent.Relational.Run
import LawyerAgent.Relational.Evolution

/-!
# Outbox publishers

Any number of publishers work on one outbox. Every claim handed out stays in
the state: a publisher that crashes leaves it unused, one that confirms late
uses it after others have claimed the row again. Each call commits in its own
transaction.
-/

set_option autoImplicit false

namespace LawyerAgent.AIJobOutbox
open Relational Common AIJobTables
open AIJobRepository AIJobOperations Envelope

variable (sha256 : List UInt8 → Digest)

structure Publishers where
  store : Store
  claims : List ClaimedOutbox

def Publishers.start : Publishers := ⟨Store.empty,[]⟩

/-- `k` is the position of a claim among all claims handed out so far. -/
inductive PublisherOp where
  | claimOutboxBatch (batch : OutboxBatch)
  | markPublished (k : ℕ) (now : Time)
  | releaseOrBlock (k : ℕ) (errorCode : PublisherErrorCode) (now : Time)
  | job (op : JobOp)

def publisherStep : PublisherOp → Publishers → Publishers
  | .claimOutboxBatch batch, p =>
    match claimOutboxBatch sha256 batch p.store with
    | .error _ => p
    | .ok (claims,s) => ⟨s,p.claims++claims⟩
  | .markPublished k now, p =>
    match p.claims[k]? with
    | none => p
    | some claim => {p with store := commit (markPublished claim now) p.store}
  | .releaseOrBlock k errorCode now, p =>
    match p.claims[k]? with
    | none => p
    | some claim => {p with store := commit (releaseOrBlock claim errorCode now) p.store}
  | .job op, p => {p with store := jobStep op p.store}

/-- The row `o` as the batch hands it out at position `k`. -/
def HandedOut (batch : OutboxBatch) (o o' : AIJobOutboxModel) : Prop :=
  ∃ k signed, signedOutbox sha256 (batch.envelopeFactory k) o = .ok signed ∧
    o' = publishingOutbox batch k signed

/-- What handing out `models` does: each of them is replaced by its handed out
row, every other row stays, and each claim is read from one of the new rows. -/
structure BatchEffect (batch : OutboxBatch) (models : List AIJobOutboxModel)
    (claims : List ClaimedOutbox) (t t' : Table aiJobOutbox) : Prop where
  kept : ∀ o ∈ t, (∀ m ∈ models, m.id ≠ o.id) → o ∈ t'
  handed : ∀ m ∈ models, ∃ o ∈ t', HandedOut sha256 batch m o
  came : ∀ o ∈ t', o ∈ t ∧ (∀ m ∈ models, m.id ≠ o.id) ∨
    ∃ m ∈ models, HandedOut sha256 batch m o
  claims : ∀ c ∈ claims, ∃ m ∈ models, ∃ o ∈ t', HandedOut sha256 batch m o ∧
    claimedOutbox o = .ok c

theorem signedOutbox_ok {factory : ClaimCandidate → Except AIJobFailure AIJobEnvelope}
    {o o' : AIJobOutboxModel} (h : signedOutbox sha256 factory o = .ok o') :
    (o.messageId.isSome = true ∧ o' = o) ∨
    (o.messageId = none ∧ ∃ envelope, o' = {o with
      messageId := some envelope.value.messageId
      nonce := some envelope.value.nonce
      issuedAt := some envelope.value.issuedAt
      signature := some envelope.value.signature
      envelopeDigest := some (envelopeDigest sha256 envelope)}) := by
  unfold signedOutbox at h
  split at h
  · rename_i messageId hm
    cases h
    exact Or.inl ⟨by rw [hm]; rfl,rfl⟩
  · rename_i hm
    right
    split at h
    · cases h
    · rename_i correlationId hc
      simp only [bind,Except.bind] at h
      split at h
      · cases h
      · rename_i envelope he
        cases h
        exact ⟨hm,envelope,rfl⟩

variable {batch : OutboxBatch} {claims : List ClaimedOutbox} {claim : ClaimedOutbox}

theorem handedOut_id {o o' : AIJobOutboxModel} (h : HandedOut sha256 batch o o') :
    o'.id = o.id := by
  obtain ⟨k,signed,hs,rfl⟩ := h
  rcases signedOutbox_ok sha256 hs with ⟨-,rfl⟩ | ⟨-,envelope,rfl⟩
  · rfl
  · rfl

theorem batchEffect_nil (batch : OutboxBatch) (t : Table aiJobOutbox) :
    BatchEffect sha256 batch [] [] t t := by
  refine ⟨fun o ho _ => ho,?_,fun o ho => Or.inl ⟨ho,?_⟩,?_⟩
  · intro m hm
    cases hm
  · intro m hm
    cases hm
  · intro c hc
    cases hc

theorem batchEffect_cons {m o : AIJobOutboxModel} {models : List AIJobOutboxModel}
    {c : ClaimedOutbox} {t u v : Table aiJobOutbox} (hm : ∀ x ∈ models, m.id ≠ x.id)
    (ho : HandedOut sha256 batch m o) (hc : claimedOutbox o = .ok c) (hrep : Replaced m o t u)
    (hrest : BatchEffect sha256 batch models claims u v) :
    BatchEffect sha256 batch (m::models) (c::claims) t v := by
  have hid := handedOut_id sha256 ho
  have hov : o ∈ v := by
    apply hrest.kept o ((replaced_mem hrep).mpr (Or.inl rfl))
    intro x hx hxo
    exact hm x hx (hid.symm.trans hxo.symm)
  constructor
  · intro x hx hne
    have hmx : m.id ≠ x.id := hne m (by simp)
    apply hrest.kept x ((replaced_mem hrep).mpr (Or.inr ⟨hx,fun h => hmx h.symm⟩))
    exact fun y hy => hne y (by simp [hy])
  · intro x hx
    rcases List.mem_cons.mp hx with rfl | hx
    · exact ⟨o,hov,ho⟩
    · exact hrest.handed x hx
  · intro x hx
    rcases hrest.came x hx with ⟨hxu,hne⟩ | ⟨y,hy,hyx⟩
    · rcases (replaced_mem hrep).mp hxu with rfl | ⟨hxt,hxm⟩
      · exact Or.inr ⟨m,by simp,ho⟩
      · left
        refine ⟨hxt,fun y hy => ?_⟩
        rcases List.mem_cons.mp hy with rfl | hy
        · exact fun h => hxm h.symm
        · exact hne y hy
    · exact Or.inr ⟨y,by simp [hy],hyx⟩
  · intro x hx
    rcases List.mem_cons.mp hx with rfl | hx
    · exact ⟨m,by simp,o,hov,ho,hc⟩
    · obtain ⟨y,hy,z,hz,hyz,hzx⟩ := hrest.claims x hx
      exact ⟨y,by simp [hy],z,hz,hyz,hzx⟩

theorem claimOutboxRows_ok (models : List AIJobOutboxModel) (k : ℕ) {s s' : Store}
    (hmem : ∀ m ∈ models, m ∈ s.outbox) (hne : models.Pairwise fun a b => a.id ≠ b.id)
    (h : claimOutboxRows sha256 batch k models s = .ok (claims,s')) :
    BatchEffect sha256 batch models claims s.outbox s'.outbox ∧
    s' = {s with outbox := s'.outbox} := by
  induction models generalizing k s claims with
  | nil =>
    obtain ⟨rfl,rfl⟩ := pure_ok.mp h
    exact ⟨batchEffect_nil sha256 batch s.outbox,rfl⟩
  | cons m models ih =>
    obtain ⟨hm,hrest⟩ := List.pairwise_cons.mp hne
    obtain ⟨signed,s₁,h₁,hk₁⟩ := bind_ok.mp h
    obtain ⟨hsigned,rfl⟩ := ofExcept_ok.mp h₁
    obtain ⟨c,s₂,h₂,hk₂⟩ := bind_ok.mp hk₁
    obtain ⟨hclaim,rfl⟩ := ofExcept_ok.mp h₂
    obtain ⟨n,s₃,h₃,hk₃⟩ := bind_ok.mp hk₂
    obtain ⟨t,ht,rfl⟩ := zoom_ok.mp h₃
    obtain ⟨rest,s₄,h₄,hk₄⟩ := bind_ok.mp hk₃
    obtain ⟨rfl,rfl⟩ := pure_ok.mp hk₄
    obtain ⟨-,hrows⟩ := updateRows_ok.mp ht
    have ho : HandedOut sha256 batch m (publishingOutbox batch k signed) :=
      ⟨k,signed,hsigned,rfl⟩
    have hrep : Replaced m (publishingOutbox batch k signed) s.outbox t := by
      refine ⟨hmem m (by simp),handedOut_id sha256 ho,hrows.trans ?_⟩
      refine List.map_congr_left fun x _ => ?_
      change (if (x.id == m.id) = true then _ else x) = if x.id = m.id then _ else x
      simp only [beq_iff_eq]
    have hmem' : ∀ x ∈ models, x ∈ t := fun x hx =>
      (replaced_mem hrep).mpr (Or.inr ⟨hmem x (by simp [hx]),fun hk => hm x hx hk.symm⟩)
    obtain ⟨heff,hframe⟩ := ih (k+1) (s := {s with outbox := t}) hmem' hrest h₄
    exact ⟨batchEffect_cons sha256 hm ho hclaim hrep heff,hframe⟩

theorem mem_dueBatch {t : Table aiJobOutbox} {o : AIJobOutboxModel} (h : o ∈ dueBatch batch t) :
    o ∈ t ∧ dueOutbox batch.now o = true := by
  have hs := (List.perm_insertionSort outboxBefore _).mem_iff.mp (List.mem_of_mem_take h)
  obtain ⟨ho,hp⟩ := mem_selectRows.mp hs
  simp only [Bool.and_eq_true] at hp
  exact ⟨ho,hp.1⟩

theorem dueBatch_distinct (batch : OutboxBatch) (t : Table aiJobOutbox) :
    (dueBatch batch t).Pairwise fun a b => a.id ≠ b.id := by
  have hrows : t.rows.Pairwise fun a b => a.id ≠ b.id := t.legal.2.imp fun h => h.1
  have hsorted : ((selectRows (fun o => dueOutbox batch.now o && !batch.locked o.id)
      t).insertionSort outboxBefore).Pairwise fun a b => a.id ≠ b.id := by
    rw [(List.perm_insertionSort outboxBefore _).pairwise_iff fun h => Ne.symm h]
    exact hrows.filter _
  exact hsorted.sublist (List.take_sublist _ _)

theorem claimOutboxBatch_ok {s s' : Store} (h : claimOutboxBatch sha256 batch s = .ok (claims,s')) :
    BatchEffect sha256 batch (dueBatch batch s.outbox) claims s.outbox s'.outbox ∧
    s' = {s with outbox := s'.outbox} := by
  obtain ⟨models,s₁,h₁,hk⟩ := bind_ok.mp h
  obtain ⟨rfl,rfl⟩ := read_ok.mp h₁
  exact claimOutboxRows_ok sha256 _ 0 (fun m hm => (mem_dueBatch hm).1)
    (dueBatch_distinct batch s.outbox) hk

theorem outboxUpdate_ok {f : AIJobOutboxModel → AIJobOutboxModel} {n : ℕ} {s s' : Store}
    (h : zoom outboxOf (updateRows AIJobFailure.integrityError (outboxClaimedBy claim) f) s = .ok
      (n,s'))
    (hf : ∀ o, (f o).id = o.id) :
    s' = s ∨ ∃ o, outboxClaimedBy claim o = true ∧ Replaced o (f o) s.outbox s'.outbox ∧
      s' = {s with outbox := s'.outbox} := by
  obtain ⟨t,ht,rfl⟩ := zoom_ok.mp h
  obtain ⟨-,hrows⟩ := updateRows_ok.mp ht
  have hp : ∀ o, outboxClaimedBy claim o = true → o.id = claim.id := by
    intro o ho
    simp only [outboxClaimedBy,Bool.and_eq_true,beq_iff_eq] at ho
    exact ho.1.1.1.1
  rcases update_keyed (S := aiJobOutbox) claim.id hp hf hrows with
    ⟨-,rfl,-⟩ | ⟨-,o,ho,hrep⟩
  · exact Or.inl (outboxOf.set_get s)
  · exact Or.inr ⟨o,ho,hrep,rfl⟩

/-- What a publisher's call does, by the call. -/
inductive PublisherEffect : PublisherOp → Publishers → Publishers → Prop where
  | unchanged (op : PublisherOp) (p : Publishers) : PublisherEffect op p p
  | handedOut (batch : OutboxBatch) (claims : List ClaimedOutbox) (p : Publishers) (s' : Store)
      (effect : BatchEffect sha256 batch (dueBatch batch p.store.outbox) claims
        p.store.outbox s'.outbox)
      (frame : s' = {p.store with outbox := s'.outbox}) :
      PublisherEffect (.claimOutboxBatch batch) p ⟨s',p.claims++claims⟩
  | published (k : ℕ) (now : Time) (claim : ClaimedOutbox) (o : AIJobOutboxModel)
      (p : Publishers) (s' : Store) (held : p.claims[k]? = some claim)
      (guard : outboxClaimedBy claim o = true)
      (row : Replaced o (publishedOutbox now o) p.store.outbox s'.outbox)
      (frame : s' = {p.store with outbox := s'.outbox}) :
      PublisherEffect (.markPublished k now) p {p with store := s'}
  | blocked (k : ℕ) (errorCode : PublisherErrorCode) (now : Time) (claim : ClaimedOutbox)
      (o : AIJobOutboxModel) (p : Publishers) (s' : Store) (held : p.claims[k]? = some claim)
      (guard : outboxClaimedBy claim o = true)
      (exhausted : claim.maxPublishAttempts ≤ claim.publishAttemptCount)
      (row : Replaced o (blockedOutbox errorCode o) p.store.outbox s'.outbox)
      (frame : s' = {p.store with outbox := s'.outbox}) :
      PublisherEffect (.releaseOrBlock k errorCode now) p {p with store := s'}
  | released (k : ℕ) (errorCode : PublisherErrorCode) (now : Time) (claim : ClaimedOutbox)
      (o : AIJobOutboxModel) (p : Publishers) (s' : Store) (held : p.claims[k]? = some claim)
      (guard : outboxClaimedBy claim o = true)
      (remaining : claim.publishAttemptCount < claim.maxPublishAttempts)
      (row : Replaced o (releasedOutbox errorCode now o) p.store.outbox s'.outbox)
      (frame : s' = {p.store with outbox := s'.outbox}) :
      PublisherEffect (.releaseOrBlock k errorCode now) p {p with store := s'}
  | job (op : JobOp) (p : Publishers) (s' : Store) (effect : JobEffect p.store s') :
      PublisherEffect (.job op) p {p with store := s'}

theorem markPublished_ok {now : Time} {s s' : Store} {b : Bool}
    (h : markPublished claim now s = .ok (b,s')) :
    s' = s ∨ ∃ o, outboxClaimedBy claim o = true ∧
      Replaced o (publishedOutbox now o) s.outbox s'.outbox ∧
      s' = {s with outbox := s'.outbox} := by
  obtain ⟨n,s₁,h₁,hk⟩ := bind_ok.mp h
  obtain ⟨-,rfl⟩ := pure_ok.mp hk
  exact outboxUpdate_ok h₁ fun _ => rfl

theorem releaseOrBlock_ok {errorCode : PublisherErrorCode} {now : Time} {s s' : Store} {b : Bool}
    (h : releaseOrBlock claim errorCode now s = .ok (b,s')) :
    s' = s ∨ ∃ o, outboxClaimedBy claim o = true ∧ s' = {s with outbox := s'.outbox} ∧
      ((claim.maxPublishAttempts ≤ claim.publishAttemptCount ∧
          Replaced o (blockedOutbox errorCode o) s.outbox s'.outbox) ∨
        (claim.publishAttemptCount < claim.maxPublishAttempts ∧
          Replaced o (releasedOutbox errorCode now o) s.outbox s'.outbox)) := by
  by_cases hx : claim.maxPublishAttempts ≤ claim.publishAttemptCount
  · rw [releaseOrBlock,if_pos hx] at h
    obtain ⟨n,s₁,h₁,hk⟩ := bind_ok.mp h
    obtain ⟨-,rfl⟩ := pure_ok.mp hk
    rcases outboxUpdate_ok h₁ fun _ => rfl with hs | ⟨o,ho,hrep,hs⟩
    · exact Or.inl hs
    · exact Or.inr ⟨o,ho,hs,Or.inl ⟨hx,hrep⟩⟩
  · rw [releaseOrBlock,if_neg hx] at h
    obtain ⟨n,s₁,h₁,hk⟩ := bind_ok.mp h
    obtain ⟨-,rfl⟩ := pure_ok.mp hk
    rcases outboxUpdate_ok h₁ fun _ => rfl with hs | ⟨o,ho,hrep,hs⟩
    · exact Or.inl hs
    · exact Or.inr ⟨o,ho,hs,Or.inr ⟨by omega,hrep⟩⟩

theorem publisherStep_effect (op : PublisherOp) (p : Publishers) :
    PublisherEffect sha256 op p (publisherStep sha256 op p) := by
  cases op with
  | claimOutboxBatch batch =>
    simp only [publisherStep]
    split
    · exact .unchanged _ p
    · rename_i claims s' h
      obtain ⟨heff,hframe⟩ := claimOutboxBatch_ok sha256 h
      exact .handedOut batch claims p s' heff hframe
  | markPublished k now =>
    simp only [publisherStep]
    split
    · exact .unchanged _ p
    · rename_i claim hk
      rcases commit_cases (markPublished claim now) p.store with h | ⟨b,h⟩
      · rw [h]
        exact .unchanged _ p
      rcases markPublished_ok h with hs | ⟨o,ho,hrep,hframe⟩
      · rw [hs]
        exact .unchanged _ p
      · exact .published k now claim o p _ hk ho hrep hframe
  | releaseOrBlock k errorCode now =>
    simp only [publisherStep]
    split
    · exact .unchanged _ p
    · rename_i claim hk
      rcases commit_cases (releaseOrBlock claim errorCode now) p.store with h | ⟨b,h⟩
      · rw [h]
        exact .unchanged _ p
      rcases releaseOrBlock_ok h with hs | ⟨o,ho,hframe,⟨hx,hrep⟩ | ⟨hx,hrep⟩⟩
      · rw [hs]
        exact .unchanged _ p
      · exact .blocked k errorCode now claim o p _ hk ho hx hrep hframe
      · exact .released k errorCode now claim o p _ hk ho hx hrep hframe
  | job op => exact .job op p _ (jobStep_effect op p.store)

end LawyerAgent.AIJobOutbox
