import LawyerAgent.AIJobOutbox

/-!
# Publication of an outbox row

The fence of a claim is reset when the row is released, so it does not grow
by itself. The row version does: every change of a row increases it, and with
it each claim that has been overtaken stays without effect.
-/

set_option autoImplicit false

namespace LawyerAgent.AIJobPublication
open Relational Common AIJobDomain AIJobTables
open AIJobRepository AIJobOperations AIJobOutbox
open Envelope

variable (sha256 : List UInt8 → Digest)

/-- The columns written when a row is signed; the kid is part of the signature. -/
structure SigningMaterial where
  messageId : Option UUID7
  nonce : Option String
  issuedAt : Option Time
  signature : Option String
  envelopeDigest : Option Digest
deriving DecidableEq

def material (o : AIJobOutboxModel) : SigningMaterial :=
  ⟨o.messageId,o.nonce,o.issuedAt,o.signature,o.envelopeDigest⟩

structure OutboxAdvance (o o' : AIJobOutboxModel) : Prop where
  live : o.status = .pending ∨ o.status = .publishing
  version : o.version < o'.version
  identity : o'.tenantId = o.tenantId ∧ o'.jobId = o.jobId ∧
    o'.schemaVersion = o.schemaVersion ∧ o'.correlationId = o.correlationId
  signed : o.messageId.isSome = true → material o' = material o

def OutboxNext (o o' : AIJobOutboxModel) : Prop := o' = o ∨ OutboxAdvance o o'

theorem outboxNext_refl (o : AIJobOutboxModel) : OutboxNext o o := Or.inl rfl

variable {o o' : AIJobOutboxModel} {batch : OutboxBatch} {c : ClaimedOutbox}

theorem outboxNext_version (h : OutboxNext o o') :
    o.version ≤ o'.version := by
  rcases h with rfl | h
  · exact le_rfl
  · exact h.version.le

theorem outboxNext_trans (a b c : AIJobOutboxModel) (h : OutboxNext a b)
    (k : OutboxNext b c) : OutboxNext a c := by
  rcases h with rfl | h
  · exact k
  rcases k with rfl | k
  · exact Or.inr h
  · obtain ⟨ht,hj,hs,hc⟩ := h.identity
    obtain ⟨kt,kj,ks,kc⟩ := k.identity
    refine Or.inr ⟨h.live,h.version.trans k.version,
      ⟨kt.trans ht,kj.trans hj,ks.trans hs,kc.trans hc⟩,fun hm => ?_⟩
    have hmat := h.signed hm
    have hb : b.messageId.isSome = true := by
      rw [show b.messageId = a.messageId from congrArg SigningMaterial.messageId hmat]
      exact hm
    rw [k.signed hb,hmat]

theorem dueOutbox_live {now : Time} (h : dueOutbox now o = true) :
    o.status = .pending ∨ o.status = .publishing := by
  simp only [dueOutbox,Bool.or_eq_true,Bool.and_eq_true,beq_iff_eq] at h
  exact h.imp And.left And.left

theorem outboxClaimedBy_fields {claim : ClaimedOutbox} (h : outboxClaimedBy claim o = true) :
    o.id = claim.id ∧
    o.claimToken = some claim.claimToken ∧ o.claimFence = some claim.claimFence ∧
    o.version = claim.version ∧ o.status = .publishing := by
  simpa [outboxClaimedBy,and_assoc] using h

theorem handedOut_fields (h : HandedOut sha256 batch o o') : o'.version = o.version+1 ∧
    o'.status = .publishing ∧ o'.publishAttemptCount = o.publishAttemptCount+1 ∧
    o'.maxPublishAttempts = o.maxPublishAttempts := by
  obtain ⟨k,signed,hs,rfl⟩ := h
  rcases signedOutbox_ok sha256 hs with ⟨-,rfl⟩ | ⟨-,envelope,rfl⟩
  · exact ⟨rfl,rfl,rfl,rfl⟩
  · exact ⟨rfl,rfl,rfl,rfl⟩

theorem handedOut_advance (hd : dueOutbox batch.now o = true) (h : HandedOut sha256 batch o o') :
    OutboxAdvance o o' := by
  have hv := (handedOut_fields sha256 h).1
  obtain ⟨k,signed,hs,rfl⟩ := h
  rcases signedOutbox_ok sha256 hs with ⟨-,rfl⟩ | ⟨hm,envelope,rfl⟩
  · exact ⟨dueOutbox_live hd,by omega,⟨rfl,rfl,rfl,rfl⟩,fun _ => rfl⟩
  · refine ⟨dueOutbox_live hd,by omega,⟨rfl,rfl,rfl,rfl⟩,fun h => ?_⟩
    simp [hm] at h

theorem batch_evolves {claims : List ClaimedOutbox} {t t' : Table aiJobOutbox}
    (h : BatchEffect sha256 batch (dueBatch batch t) claims t t') :
    Evolves OutboxNext (fun _ => False) t t' := by
  constructor
  · intro o ho
    by_cases hm : ∃ m ∈ dueBatch batch t, m.id = o.id
    · obtain ⟨m,hm,hid⟩ := hm
      obtain ⟨hmt,hdue⟩ := mem_dueBatch hm
      obtain rfl := eq_of_key hmt ho hid
      obtain ⟨o',ho',hout⟩ := h.handed m hm
      exact ⟨o',ho',handedOut_id sha256 hout,Or.inr (handedOut_advance sha256 hdue hout)⟩
    · refine ⟨o,h.kept o ho fun m hm' hid => hm ⟨m,hm',hid⟩,rfl,outboxNext_refl o⟩
  · intro o' ho'
    left
    rcases h.came o' ho' with ⟨ho,-⟩ | ⟨m,hm,hout⟩
    · exact ⟨o',ho,rfl,outboxNext_refl o'⟩
    · obtain ⟨hmt,hdue⟩ := mem_dueBatch hm
      exact ⟨m,hmt,handedOut_id sha256 hout,Or.inr (handedOut_advance sha256 hdue hout)⟩

/-- A row enters the outbox unsigned, with its whole budget of attempts. -/
def Newborn (o : AIJobOutboxModel) : Prop := ∃ graph : NewAIJobGraph, o = outboxModel graph.value

theorem jobEffect_outbox {s s' : Store} (h : JobEffect s s') :
    s'.outbox = s.outbox ∨
    ∃ graph : NewAIJobGraph, Inserted (outboxModel graph.value) s.outbox s'.outbox := by
  cases h with
  | unchanged same => exact Or.inl (same ▸ rfl)
  | added graph timestamp job grant outbox frame => exact Or.inr ⟨graph,outbox⟩
  | claimed r timestamp j guard job attempt frame => exact Or.inl (by rw [frame])
  | beaten r j guard job frame => exact Or.inl (by rw [frame])
  | finalized r j guard job attempts frame => exact Or.inl (by rw [frame])
  | ended tenantId jobId j j' guard target job frame => exact Or.inl (by rw [frame])

theorem claimed_live {claim : ClaimedOutbox} (h : outboxClaimedBy claim o = true) :
    o.status = .pending ∨ o.status = .publishing :=
  Or.inr (outboxClaimedBy_fields h).2.2.2.2

theorem effect_outbox {op : PublisherOp} {p p' : Publishers}
    (h : PublisherEffect sha256 op p p') :
    Evolves OutboxNext Newborn p.store.outbox p'.store.outbox := by
  cases h with
  | unchanged => exact evolves_refl outboxNext_refl _
  | handedOut batch claims p s' effect frame =>
    exact evolves_mono (fun _ _ => id) (fun _ => False.elim) (batch_evolves sha256 effect)
  | published k now claim o p s' held guard row frame =>
    have hadv : OutboxAdvance o (publishedOutbox now o) :=
      ⟨claimed_live guard,Nat.lt_succ_self _,⟨rfl,rfl,rfl,rfl⟩,fun _ => rfl⟩
    exact evolves_replaced outboxNext_refl (Or.inr hadv) row
  | blocked k errorCode now claim o p s' held guard exhausted row frame =>
    have hadv : OutboxAdvance o (blockedOutbox errorCode o) :=
      ⟨claimed_live guard,Nat.lt_succ_self _,⟨rfl,rfl,rfl,rfl⟩,fun _ => rfl⟩
    exact evolves_replaced outboxNext_refl (Or.inr hadv) row
  | released k errorCode now claim o p s' held guard remaining row frame =>
    have hadv : OutboxAdvance o (releasedOutbox errorCode now o) :=
      ⟨claimed_live guard,Nat.lt_succ_self _,⟨rfl,rfl,rfl,rfl⟩,fun _ => rfl⟩
    exact evolves_replaced outboxNext_refl (Or.inr hadv) row
  | job op p s' effect =>
    rcases jobEffect_outbox effect with hs | ⟨graph,hins⟩
    · change Evolves OutboxNext Newborn p.store.outbox s'.outbox
      rw [hs]
      exact evolves_refl outboxNext_refl _
    · exact evolves_inserted outboxNext_refl ⟨graph,rfl⟩ hins

/-- Every row is still there and has only advanced. -/
def RowsAdvance (p p' : Publishers) : Prop :=
  ∀ o ∈ p.store.outbox, ∃ o' ∈ p'.store.outbox, o'.id = o.id ∧ OutboxNext o o'

instance : Std.Refl RowsAdvance := ⟨fun _ o ho => ⟨o,ho,rfl,outboxNext_refl o⟩⟩

instance : IsTrans Publishers RowsAdvance where
  trans := fun p q r h k o ho => by
    obtain ⟨o',ho',hid,hn⟩ := h o ho
    obtain ⟨o'',ho'',hid',hn'⟩ := k o' ho'
    exact ⟨o'',ho'',hid'.trans hid,outboxNext_trans _ _ _ hn hn'⟩

theorem step_advance (op : PublisherOp) (p : Publishers) :
    RowsAdvance p (publisherStep sha256 op p) := fun o ho => by
  obtain ⟨o',ho',hid,hn⟩ := (effect_outbox sha256 (publisherStep_effect sha256 op p)).kept o ho
  exact ⟨o',ho',hid,hn⟩

theorem run_advance (ops : List PublisherOp) (p : Publishers) :
    RowsAdvance p (run (publisherStep sha256) ops p) :=
  run_related (step_advance sha256) ops p

theorem rowsAdvance_related {p q : Publishers} (h : RowsAdvance p q) (ho : o ∈ p.store.outbox)
    (ho' : o' ∈ q.store.outbox) (hid : o'.id = o.id) :
    OutboxNext o o' := by
  obtain ⟨x,hx,hxid,hn⟩ := h o ho
  rw [eq_of_key ho' hx (hid.trans hxid.symm)]
  exact hn

theorem rowsAdvance_final {p q : Publishers} (h : RowsAdvance p q) (ho : o ∈ p.store.outbox)
    (hs : o.status = .published ∨ o.status = .blocked) :
    o ∈ q.store.outbox := by
  obtain ⟨x,hx,-,hn⟩ := h o ho
  rcases hn with rfl | hadv
  · exact hx
  · rcases hs with hs | hs
    · rcases hadv.live with hl | hl
      · simp [hs] at hl
      · simp [hs] at hl
    · rcases hadv.live with hl | hl
      · simp [hs] at hl
      · simp [hs] at hl

/-- The signed reference a row carries, with its digest. -/
def signedReference (o : AIJobOutboxModel) : Option (AIJobEnvelopeFields × Digest) := do
  let messageId ← o.messageId
  let correlationId ← o.correlationId
  let nonce ← o.nonce
  let signature ← o.signature
  let issuedAt ← o.issuedAt
  let digest ← o.envelopeDigest
  some ({
    schemaVersion := o.schemaVersion
    messageId := messageId
    jobId := o.jobId
    tenantId := o.tenantId
    correlationId := correlationId
    issuedAt := issuedAt
    nonce := nonce
    signature := signature},digest)

/-- The row a claim was taken from, now or at a later version. -/
structure Reflects (c : ClaimedOutbox) (o : AIJobOutboxModel) : Prop where
  id : o.id = c.id
  version : c.version ≤ o.version
  budget : o.version = c.version → o.publishAttemptCount = c.publishAttemptCount ∧
    o.maxPublishAttempts = c.maxPublishAttempts
  reference : signedReference o = some (c.envelope.value,c.envelopeDigest)

theorem claimedOutbox_reflects (h : claimedOutbox o = .ok c) : Reflects c o := by
  unfold claimedOutbox at h
  split at h
  · rename_i messageId correlationId nonce signature issuedAt token fence digest
      hm hc hn hs hi ht hf hd
    split at h
    · cases h
    · rename_i envelope he
      cases h
      refine ⟨rfl,le_rfl,fun _ => ⟨rfl,rfl⟩,?_⟩
      simp [signedReference,hm,hc,hn,hs,hi,hd,postInit_ok he]
  · cases h

theorem signedReference_isSome (h : (signedReference o).isSome = true) :
    o.messageId.isSome = true := by
  cases hm : o.messageId with
  | none => simp [signedReference,hm] at h
  | some m => rfl

theorem signedReference_next (h : OutboxNext o o') (hs : (signedReference o).isSome = true) :
    signedReference o' = signedReference o := by
  rcases h with rfl | h
  · rfl
  · have hmat := h.signed (signedReference_isSome hs)
    obtain ⟨ht,hj,hv,hc⟩ := h.identity
    simp only [material,SigningMaterial.mk.injEq] at hmat
    obtain ⟨hm,hn,hi,hg,hd⟩ := hmat
    simp only [signedReference,ht,hj,hv,hc,hm,hn,hi,hg,hd]

theorem reflects_next (h : Reflects c o) (hid : o'.id = o.id) (hn : OutboxNext o o') :
    Reflects c o' := by
  refine ⟨hid.trans h.id,h.version.trans (outboxNext_version hn),fun hv => ?_,?_⟩
  · rcases hn with rfl | hadv
    · exact h.budget hv
    · have hc := h.version
      have hlt := hadv.version
      omega
  · rw [signedReference_next hn (by rw [h.reference]; rfl)]
    exact h.reference

def ClaimsSound (p : Publishers) : Prop :=
  ∀ c ∈ p.claims, ∃ o ∈ p.store.outbox, Reflects c o

theorem claimsSound_advance {p p' : Publishers} (h : ClaimsSound p) (ha : RowsAdvance p p')
    (hc : c ∈ p.claims) : ∃ o ∈ p'.store.outbox, Reflects c o := by
  obtain ⟨o,ho,hr⟩ := h c hc
  obtain ⟨o',ho',hid,hn⟩ := ha o ho
  exact ⟨o',ho',reflects_next hr hid hn⟩

theorem step_claimsSound (op : PublisherOp) (p : Publishers) (h : ClaimsSound p) :
    ClaimsSound (publisherStep sha256 op p) := by
  have ha := step_advance sha256 op p
  have heff := publisherStep_effect sha256 op p
  generalize publisherStep sha256 op p = p' at ha heff
  intro c hc
  cases heff with
  | unchanged => exact h c hc
  | handedOut batch claims p s' effect frame =>
    rcases List.mem_append.mp hc with hc | hc
    · exact claimsSound_advance h ha hc
    · obtain ⟨m,-,o,ho,-,hco⟩ := effect.claims c hc
      exact ⟨o,ho,claimedOutbox_reflects hco⟩
  | published k now claim o p s' held guard row frame => exact claimsSound_advance h ha hc
  | blocked k errorCode now claim o p s' held guard exhausted row frame =>
    exact claimsSound_advance h ha hc
  | released k errorCode now claim o p s' held guard remaining row frame =>
    exact claimsSound_advance h ha hc
  | job op p s' effect => exact claimsSound_advance h ha hc

theorem run_claimsSound (ops : List PublisherOp) :
    ClaimsSound (run (publisherStep sha256) ops .start) := by
  apply run_invariant (step_claimsSound sha256)
  intro c hc
  cases hc

/-- The row still carries the claim's token, fence and version. -/
def CurrentClaim (s : Store) (c : ClaimedOutbox) : Prop :=
  ∃ o ∈ s.outbox, outboxClaimedBy c o = true

theorem markPublished_stale (c : ClaimedOutbox) (now : Time) (s : Store)
    (h : ¬CurrentClaim s c) : commit (markPublished c now) s = s := by
  rcases commit_cases (markPublished c now) s with hs | ⟨b,hb⟩
  · exact hs
  · rcases markPublished_ok hb with hs | ⟨o,ho,hrep,-⟩
    · exact hs
    · exact absurd ⟨o,hrep.mem,ho⟩ h

theorem releaseOrBlock_stale (c : ClaimedOutbox) (errorCode : PublisherErrorCode) (now : Time)
    (s : Store) (h : ¬CurrentClaim s c) : commit (releaseOrBlock c errorCode now) s = s := by
  rcases commit_cases (releaseOrBlock c errorCode now) s with hs | ⟨b,hb⟩
  · exact hs
  · rcases releaseOrBlock_ok hb with hs | ⟨o,ho,-,⟨-,hrep⟩ | ⟨-,hrep⟩⟩
    · exact hs
    · exact absurd ⟨o,hrep.mem,ho⟩ h
    · exact absurd ⟨o,hrep.mem,ho⟩ h

/-- Once the row of a claim has changed, or the claim is not current, it is
not current in any later state. -/
theorem overtaken_stays {p q : Publishers} (hp : ClaimsSound p) (ha : RowsAdvance p q)
    (hc : c ∈ p.claims)
    (h : ¬CurrentClaim p.store c ∨ ∃ o ∈ p.store.outbox, o.id = c.id ∧ o ∉ q.store.outbox) :
    ¬CurrentClaim q.store c := by
  obtain ⟨o,ho,hr⟩ := hp c hc
  rintro ⟨o',ho',hguard⟩
  obtain ⟨hid',-,-,hversion,-⟩ := outboxClaimedBy_fields hguard
  have hnext := rowsAdvance_related ha ho ho' (hid'.trans hr.id.symm)
  have hsame : o' = o := by
    rcases hnext with hsame | hadv
    · exact hsame
    · have hlt := hadv.version
      have hle := hr.version
      omega
  subst hsame
  rcases h with hstale | ⟨x,hx,hxid,hgone⟩
  · exact hstale ⟨o',ho,hguard⟩
  · rw [eq_of_key hx ho (hxid.trans hr.id.symm)] at hgone
    exact hgone ho'

theorem published_by_current {op : PublisherOp} {p p' : Publishers}
    (h : PublisherEffect sha256 op p p') (ho : o ∈ p.store.outbox) (ho' : o' ∈ p'.store.outbox)
    (hid : o'.id = o.id) (hs : o.status ≠ .published) (hs' : o'.status = .published) :
    ∃ k now c, op = .markPublished k now ∧ p.claims[k]? = some c ∧
      outboxClaimedBy c o = true := by
  have hne : o' ∉ p.store.outbox := fun hold => by
    rw [eq_of_key hold ho hid] at hs'
    exact hs hs'
  cases h with
  | unchanged => exact absurd ho' hne
  | handedOut batch claims p s' effect frame =>
    rcases effect.came o' ho' with ⟨hold,-⟩ | ⟨m,-,hout⟩
    · exact absurd hold hne
    · rw [(handedOut_fields sha256 hout).2.1] at hs'
      cases hs'
  | published k now claim x p s' held guard row frame =>
    rcases (replaced_mem row).mp ho' with rfl | ⟨hold,-⟩
    · rw [eq_of_key ho row.mem hid.symm]
      exact ⟨k,now,claim,rfl,held,guard⟩
    · exact absurd hold hne
  | blocked k errorCode now claim x p s' held guard exhausted row frame =>
    rcases (replaced_mem row).mp ho' with rfl | ⟨hold,-⟩
    · cases hs'
    · exact absurd hold hne
  | released k errorCode now claim x p s' held guard remaining row frame =>
    rcases (replaced_mem row).mp ho' with rfl | ⟨hold,-⟩
    · cases hs'
    · exact absurd hold hne
  | job op p s' effect =>
    rcases jobEffect_outbox effect with hsame | ⟨graph,hins⟩
    · exact absurd (hsame ▸ ho') hne
    · rcases (inserted_mem hins).mp ho' with rfl | hold
      · cases hs'
      · exact absurd hold hne

/-- Between any two moments `p` and `q` of a run of publishers: a claim whose row
has changed since `p`, or that is not current at `p`, neither publishes nor
releases anything at `q`; published and blocked rows stay as they are; and a
row becomes published at `q` only through the claim current at `q`. -/
theorem outbox_claims (ops₁ ops₂ : List PublisherOp) :
    let p := run (publisherStep sha256) ops₁ .start
    let q := run (publisherStep sha256) ops₂ p
    (∀ c ∈ p.claims,
      (¬CurrentClaim p.store c ∨ ∃ o ∈ p.store.outbox, o.id = c.id ∧ o ∉ q.store.outbox) →
      (∀ now, commit (markPublished c now) q.store = q.store) ∧
      ∀ errorCode now, commit (releaseOrBlock c errorCode now) q.store = q.store) ∧
    (∀ o ∈ p.store.outbox, o.status = .published ∨ o.status = .blocked →
      o ∈ q.store.outbox) ∧
    (∀ op, ∀ o ∈ q.store.outbox, ∀ o' ∈ (publisherStep sha256 op q).store.outbox,
      o'.id = o.id → o.status ≠ .published → o'.status = .published →
      ∃ k now c, op = .markPublished k now ∧ q.claims[k]? = some c ∧
        outboxClaimedBy c o = true) := by
  intro p q
  have ha : RowsAdvance p q := run_advance sha256 ops₂ p
  refine ⟨fun c hc h => ?_,fun o ho hs => rowsAdvance_final ha ho hs,
    fun op o ho o' ho' hid hs hs' => ?_⟩
  · have hstale := overtaken_stays (run_claimsSound sha256 ops₁) ha hc h
    exact ⟨fun now => markPublished_stale c now q.store hstale,
      fun errorCode now => releaseOrBlock_stale c errorCode now q.store hstale⟩
  · exact published_by_current sha256 (publisherStep_effect sha256 op q) ho ho' hid hs hs'

end LawyerAgent.AIJobPublication
