import LawyerAgent.AIJobPublication
import LawyerAgent.AIJobRuntime

/-!
# Publication and delivery together

Publishers, a broker and workers over one store. The broker keeps every copy
that was sent and may hand each of them to a worker any number of times; a
worker sees a copy once its body is decoded and its signature verified. A
worker's transaction opens with its inbox lookup and ends, at any later
moment, with the rest of `acceptDelivery`. Jobs are claimed by deliveries only.
-/

set_option autoImplicit false

namespace LawyerAgent.AIJobDelivery
open Relational Common AIJobDomain AIJobTables
open AIJobRepository AIJobOperations AIJobOutbox
open AIJobPublication AIJobRuntime Envelope
open IdentityTables

variable (sha256 : List UInt8 → Digest)

structure Opened where
  copy : ClaimedOutbox
  existing : Option AIJobInboxModel

structure Deliveries where
  publishers : Publishers
  broker : List ClaimedOutbox
  opened : List Opened

def Deliveries.start : Deliveries := ⟨.start,[],[]⟩

def Deliveries.store (p : Deliveries) : Store := p.publishers.store

def runsClaim : PublisherOp → Bool
  | .job (.claimDueJob _ _) => true
  | _ => false

/-- `k` is a position among all claims, all copies or all opened transactions. -/
inductive DeliveryOp where
  | publisher (op : {op : PublisherOp // runsClaim op = false})
  | publish (k : ℕ)
  | receive (k : ℕ)
  | accept (k : ℕ) (worker : WorkerService) (identity : Identity) (ids : DeliveryIds)
      (now currentTimestamp : Time)

def deliveryOf (copy : ClaimedOutbox) (identity : Identity) (ids : DeliveryIds)
    (now currentTimestamp : Time) : Delivery where
  tenantId := copy.envelope.value.tenantId
  messageId := copy.envelope.value.messageId
  jobId := copy.envelope.value.jobId
  envelope := copy.envelope
  identity := identity
  ids := ids
  now := now
  currentTimestamp := currentTimestamp

def deliveryStep : DeliveryOp → Deliveries → Deliveries
  | .publisher op, p => {p with publishers := publisherStep sha256 op.1 p.publishers}
  | .publish k, p =>
    match p.publishers.claims[k]? with
    | none => p
    | some claim => {p with broker := p.broker++[claim]}
  | .receive k, p =>
    match p.broker[k]? with
    | none => p
    | some copy =>
      let existing := inboxRow copy.envelope.value.tenantId copy.envelope.value.messageId p.store
      {p with opened := p.opened++[⟨copy,existing⟩]}
  | .accept k worker identity ids now timestamp, p =>
    match p.opened[k]? with
    | none => p
    | some o =>
      let d := deliveryOf o.copy identity ids now timestamp
      {p with publishers := {p.publishers with
        store := commit (acceptDeliveryAfter sha256 worker d o.existing) p.store}}

/-- What a step does: it publishes, sends, opens, or records one new message. -/
inductive DeliveryEffect (p : Deliveries) : DeliveryOp → Deliveries → Prop where
  | unchanged (op : DeliveryOp) : DeliveryEffect p op p
  | publisher (op : {op : PublisherOp // runsClaim op = false}) :
      DeliveryEffect p (.publisher op)
        {p with publishers := publisherStep sha256 op.1 p.publishers}
  | published (k : ℕ) (claim : ClaimedOutbox) (held : claim ∈ p.publishers.claims) :
      DeliveryEffect p (.publish k) {p with broker := p.broker++[claim]}
  | received (k : ℕ) (copy : ClaimedOutbox) (sent : copy ∈ p.broker) :
      DeliveryEffect p (.receive k) {p with opened := p.opened++[⟨copy,
        inboxRow copy.envelope.value.tenantId copy.envelope.value.messageId p.store⟩]}
  | recorded (k : ℕ) (worker : WorkerService) (identity : Identity) (ids : DeliveryIds)
      (now timestamp : Time) (o : Opened) (decision : DeliveryDecision) (s' : Store)
      (held : p.opened[k]? = some o) (unseen : o.existing = none)
      (effect : FirstEffect sha256 worker (deliveryOf o.copy identity ids now timestamp)
        p.store decision s') :
      DeliveryEffect p (.accept k worker identity ids now timestamp)
        {p with publishers := {p.publishers with store := s'}}

theorem deliveryStep_effect (op : DeliveryOp) (p : Deliveries) :
    DeliveryEffect sha256 p op (deliveryStep sha256 op p) := by
  cases op with
  | publisher op => exact .publisher op
  | publish k =>
    simp only [deliveryStep]
    split
    · exact .unchanged _
    · rename_i claim hk
      exact .published k claim (List.mem_of_getElem? hk)
  | receive k =>
    simp only [deliveryStep]
    split
    · exact .unchanged _
    · rename_i copy hk
      exact .received k copy (List.mem_of_getElem? hk)
  | accept k worker identity ids now timestamp =>
    simp only [deliveryStep]
    split
    · exact .unchanged _
    · rename_i o hk
      rcases commit_cases (acceptDeliveryAfter sha256 worker
        (deliveryOf o.copy identity ids now timestamp) o.existing) p.store with h | ⟨decision,h⟩
      · rw [h]
        exact .unchanged _
      · cases hex : o.existing with
        | none =>
          rw [hex] at h
          exact .recorded k worker identity ids now timestamp o decision _ hk hex
            (acceptDeliveryAfter_first h)
        | some row =>
          rw [hex] at h
          rw [(acceptDeliveryAfter_known h).1]
          exact .unchanged _

def Unsigned (o : AIJobOutboxModel) : Prop := material o = ⟨none,none,none,none,none⟩

/-- A row is not signed at all or carries a whole signed reference. -/
def Whole (o : AIJobOutboxModel) : Prop := Unsigned o ∨ (signedReference o).isSome = true

theorem signedOutbox_reference {factory : ClaimCandidate → Except AIJobFailure AIJobEnvelope}
    {o o' : AIJobOutboxModel} (hm : o.messageId = none)
    (h : signedOutbox sha256 factory o = .ok o') : (signedReference o').isSome = true := by
  unfold signedOutbox at h
  rw [hm] at h
  cases hc : o.correlationId with
  | none =>
    rw [hc] at h
    cases h
  | some correlationId =>
    rw [hc] at h
    simp only [bind,Except.bind] at h
    split at h
    · cases h
    · cases h
      simp [signedReference]

theorem handedOut_whole {batch : OutboxBatch} {o o' : AIJobOutboxModel} (h : Whole o)
    (hout : HandedOut sha256 batch o o') : Whole o' := by
  obtain ⟨k,signed,hs,rfl⟩ := hout
  right
  change (signedReference signed).isSome = true
  cases hm : o.messageId with
  | none => exact signedOutbox_reference sha256 hm hs
  | some messageId =>
    rcases signedOutbox_ok sha256 hs with ⟨-,rfl⟩ | ⟨hnone,-⟩
    · rcases h with hun | hsome
      · have hnone := congrArg SigningMaterial.messageId hun
        simp [material,hm] at hnone
      · exact hsome
    · rw [hm] at hnone
      cases hnone

theorem replaced_whole {o o' : AIJobOutboxModel} {t t' : Table aiJobOutbox}
    (hrep : Replaced o o' t t') (h : ∀ x ∈ t, Whole x) (ho : Whole o → Whole o') :
    ∀ x ∈ t', Whole x := by
  intro x hx
  rcases (replaced_mem hrep).mp hx with rfl | ⟨hx,-⟩
  · exact ho (h o hrep.mem)
  · exact h x hx

theorem publisher_whole (op : PublisherOp) (p : Publishers)
    (h : ∀ o ∈ p.store.outbox, Whole o) :
    ∀ o ∈ (publisherStep sha256 op p).store.outbox, Whole o := by
  have heff := publisherStep_effect sha256 op p
  generalize publisherStep sha256 op p = p' at heff
  cases heff with
  | unchanged => exact h
  | handedOut batch claims p s' effect frame =>
    intro o ho
    rcases effect.came o ho with ⟨hold,-⟩ | ⟨m,hm,hout⟩
    · exact h o hold
    · exact handedOut_whole sha256 (h m (mem_dueBatch hm).1) hout
  | published k now claim o p s' held guard row frame => exact replaced_whole row h id
  | blocked k errorCode now claim o p s' held guard exhausted row frame =>
    exact replaced_whole row h id
  | released k errorCode now claim o p s' held guard remaining row frame =>
    exact replaced_whole row h id
  | job op p s' effect =>
    intro o ho
    rcases jobEffect_outbox effect with hsame | ⟨graph,hins⟩
    · exact h o (hsame ▸ ho)
    · rcases (inserted_mem hins).mp ho with rfl | hold
      · exact Or.inl rfl
      · exact h o hold

variable {s s' : Store} {d : Delivery} {decision : DeliveryDecision} {worker : WorkerService}

theorem jobEffect_inbox (h : JobEffect s s') : s'.inbox = s.inbox := by
  cases h with
  | unchanged same => rw [same]
  | added graph timestamp job grant outbox frame => exact frame.2
  | claimed r timestamp j guard job attempt frame => rw [frame]
  | beaten r j guard job frame => rw [frame]
  | finalized r j guard job attempts frame => rw [frame]
  | ended tenantId jobId j j' guard target job frame => rw [frame]

theorem publisher_inbox (op : PublisherOp) (p : Publishers) :
    (publisherStep sha256 op p).store.inbox = p.store.inbox := by
  have heff := publisherStep_effect sha256 op p
  generalize publisherStep sha256 op p = p' at heff
  cases heff with
  | unchanged => rfl
  | handedOut batch claims p s' effect frame => rw [frame]
  | published k now claim o p s' held guard row frame => rw [frame]
  | blocked k errorCode now claim o p s' held guard exhausted row frame => rw [frame]
  | released k errorCode now claim o p s' held guard remaining row frame => rw [frame]
  | job op p s' effect => exact jobEffect_inbox effect

theorem publisher_claims (op : PublisherOp) (p : Publishers) {c : ClaimedOutbox}
    (hc : c ∈ p.claims) : c ∈ (publisherStep sha256 op p).claims := by
  have heff := publisherStep_effect sha256 op p
  generalize publisherStep sha256 op p = p' at heff
  cases heff with
  | unchanged => exact hc
  | handedOut batch claims p s' effect frame => exact List.mem_append_left _ hc
  | published k now claim o p s' held guard row frame => exact hc
  | blocked k errorCode now claim o p s' held guard exhausted row frame => exact hc
  | released k errorCode now claim o p s' held guard remaining row frame => exact hc
  | job op p s' effect => exact hc

def origin (a : AIJobAttemptModel) : UUID7 × UUID7 × UUID7 :=
  (a.tenantId,a.jobId,a.triggerMessageId)

def SameOrigins (s s' : Store) : Prop :=
  ∀ a' ∈ s'.attempts, ∃ a ∈ s.attempts, origin a' = origin a

theorem sameOrigins_of_eq (h : s'.attempts = s.attempts) : SameOrigins s s' :=
  fun a ha => ⟨a,h ▸ ha,rfl⟩

theorem finalized_origins {r : FencedFinalizeSuccessFields}
    (h : s'.attempts.rows = attemptsFinalized r s.attempts) : SameOrigins s s' := by
  intro a' ha'
  rw [mem_rows,h] at ha'
  obtain ⟨a,ha,rfl⟩ := List.mem_map.mp ha'
  refine ⟨a,ha,?_⟩
  by_cases hg : finalizedAttemptGuard r a = true
  · rw [if_pos hg]
    rfl
  · rw [if_neg hg]

theorem jobStep_origins (op : JobOp) (hop : runsClaim (.job op) = false) (s : Store) :
    SameOrigins s (jobStep op s) := by
  have hcommit : ∀ {α : Type} (x : StoreTx α),
      (∀ a s', x s = .ok (a,s') → SameOrigins s s') → SameOrigins s (commit x s) := by
    intro α x h
    rcases commit_cases x s with hs | ⟨a,hs⟩
    · rw [hs]
      exact sameOrigins_of_eq rfl
    · exact h a _ hs
  cases op with
  | addJobGraph graph timestamp =>
    refine hcommit _ fun _ s' h => ?_
    exact sameOrigins_of_eq (addJobGraph_ok h).2.2.2.1
  | claimDueJob request timestamp => cases hop
  | heartbeat request =>
    refine hcommit _ fun _ s' h => ?_
    rcases heartbeat_ok h with ⟨-,hs⟩ | ⟨-,j,-,-,hs⟩
    · exact sameOrigins_of_eq (by rw [hs])
    · exact sameOrigins_of_eq (by rw [hs])
  | finalizeSuccess request =>
    refine hcommit _ fun _ s' h => ?_
    rcases finalizeSuccess_ok h with ⟨-,hs⟩ | ⟨-,j,-,-,hatt,-⟩
    · exact sameOrigins_of_eq (by rw [hs])
    · exact finalized_origins hatt
  | failJobWithoutAttempt tenantId jobId failureClass failureCode now =>
    refine hcommit _ fun _ s' h => ?_
    rcases failJobWithoutAttempt_ok h with ⟨-,hs⟩ | ⟨-,j,-,-,hs⟩
    · exact sameOrigins_of_eq (by rw [hs])
    · exact sameOrigins_of_eq (by rw [hs])
  | cancelClaimableJob tenantId jobId now =>
    refine hcommit _ fun _ s' h => ?_
    rcases cancelClaimableJob_ok h with ⟨-,hs⟩ | ⟨-,j,-,-,hs⟩
    · exact sameOrigins_of_eq (by rw [hs])
    · exact sameOrigins_of_eq (by rw [hs])

theorem publisher_origins (op : PublisherOp) (hop : runsClaim op = false) (p : Publishers) :
    SameOrigins p.store (publisherStep sha256 op p).store := by
  have heff := publisherStep_effect sha256 op p
  cases op with
  | claimOutboxBatch batch =>
    generalize publisherStep sha256 (.claimOutboxBatch batch) p = p' at heff
    cases heff with
    | unchanged => exact sameOrigins_of_eq rfl
    | handedOut batch claims p s' effect frame => exact sameOrigins_of_eq (by rw [frame])
  | markPublished k now =>
    generalize publisherStep sha256 (.markPublished k now) p = p' at heff
    cases heff with
    | unchanged => exact sameOrigins_of_eq rfl
    | published k now claim o p s' held guard row frame =>
      exact sameOrigins_of_eq (by rw [frame])
  | releaseOrBlock k errorCode now =>
    generalize publisherStep sha256 (.releaseOrBlock k errorCode now) p = p' at heff
    cases heff with
    | unchanged => exact sameOrigins_of_eq rfl
    | blocked k errorCode now claim o p s' held guard exhausted row frame =>
      exact sameOrigins_of_eq (by rw [frame])
    | released k errorCode now claim o p s' held guard remaining row frame =>
      exact sameOrigins_of_eq (by rw [frame])
  | job op => exact jobStep_origins op hop p.store

theorem first_outbox (h : FirstEffect sha256 worker d s decision s') :
    s'.outbox = s.outbox := by
  cases h with
  | denied authority s' loaded decision recorded jobs frame => rw [frame]
  | rejected authority s' loaded decision recorded frame => rw [frame]
  | claimed authority j s' loaded decision recorded guard job attempt frame => rw [frame]

theorem first_recorded (h : FirstEffect sha256 worker d s decision s') :
    Recorded sha256 d s s' := by
  cases h with
  | denied authority s' loaded decision recorded jobs frame => exact recorded
  | rejected authority s' loaded decision recorded frame => exact recorded
  | claimed authority j s' loaded decision recorded guard job attempt frame => exact recorded

/-- A first delivery makes at most one attempt, for its own message. -/
theorem first_attempts (h : FirstEffect sha256 worker d s decision s') {a : AIJobAttemptModel}
    (ha : a ∈ s'.attempts) :
    a ∈ s.attempts ∨ origin a = (d.tenantId,d.jobId,d.messageId) := by
  cases h with
  | denied authority s' loaded decision recorded jobs frame =>
    rw [frame] at ha
    exact Or.inl ha
  | rejected authority s' loaded decision recorded frame =>
    rw [frame] at ha
    exact Or.inl ha
  | claimed authority j s' loaded decision recorded guard job attempt frame =>
    rcases (inserted_mem attempt).mp ha with rfl | hold
    · exact Or.inr rfl
    · exact Or.inl hold

/-- The inbox row is the record of the copy's message. -/
structure RecordOf (i : AIJobInboxModel) (c : ClaimedOutbox) : Prop where
  tenant : i.tenantId = c.envelope.value.tenantId
  message : i.messageId = c.envelope.value.messageId
  job : i.jobId = c.envelope.value.jobId
  digest : i.envelopeDigest = envelopeDigest sha256 c.envelope

structure Sound (p : Deliveries) : Prop where
  claims : ClaimsSound p.publishers
  rows : ∀ o ∈ p.store.outbox, Whole o
  broker : ∀ c ∈ p.broker, c ∈ p.publishers.claims
  opened : ∀ o ∈ p.opened, o.copy ∈ p.broker
  inbox : ∀ i ∈ p.store.inbox, ∃ c ∈ p.broker, RecordOf sha256 i c
  attempts : ∀ a ∈ p.store.attempts, ∃ i ∈ p.store.inbox,
    origin a = (i.tenantId,i.jobId,i.messageId)

theorem recorded_copy {o : Opened} {identity : Identity} {ids : DeliveryIds}
    {now timestamp : Time} {i : AIJobInboxModel}
    (h : RecordsMessage sha256 (deliveryOf o.copy identity ids now timestamp) i) :
    RecordOf sha256 i o.copy := by
  obtain ⟨-,ht,hm,hj,hd⟩ := recordsMessage_id h
  exact ⟨ht,hm,hj,hd⟩

theorem step_sound (op : DeliveryOp) (p : Deliveries) (h : Sound sha256 p) :
    Sound sha256 (deliveryStep sha256 op p) := by
  have heff := deliveryStep_effect sha256 op p
  generalize deliveryStep sha256 op p = p' at heff
  cases heff with
  | unchanged => exact h
  | publisher op =>
    have hinbox := publisher_inbox sha256 op.1 p.publishers
    refine ⟨step_claimsSound sha256 op.1 _ h.claims,publisher_whole sha256 op.1 _ h.rows,
      fun c hc => publisher_claims sha256 op.1 _ (h.broker c hc),h.opened,fun i hi => ?_,
      fun a' ha' => ?_⟩
    · exact h.inbox i (hinbox ▸ hi)
    · obtain ⟨a,ha,hor⟩ := publisher_origins sha256 op.1 op.2 p.publishers a' ha'
      obtain ⟨i,hi,hio⟩ := h.attempts a ha
      exact ⟨i,hinbox ▸ hi,hor.trans hio⟩
  | published k claim held =>
    refine ⟨h.claims,h.rows,fun c hc => ?_,fun o ho => ?_,fun i hi => ?_,h.attempts⟩
    · rcases List.mem_append.mp hc with hc | hc
      · exact h.broker c hc
      · rw [List.mem_singleton.mp hc]
        exact held
    · exact List.mem_append_left _ (h.opened o ho)
    · obtain ⟨c,hc,hic⟩ := h.inbox i hi
      exact ⟨c,List.mem_append_left _ hc,hic⟩
  | received k copy sent =>
    refine ⟨h.claims,h.rows,h.broker,fun o ho => ?_,h.inbox,h.attempts⟩
    rcases List.mem_append.mp ho with ho | ho
    · exact h.opened o ho
    · rw [List.mem_singleton.mp ho]
      exact sent
  | recorded k worker identity ids now timestamp o decision s' held unseen effect =>
    have houtbox := first_outbox sha256 effect
    obtain ⟨i,hi,hins⟩ := first_recorded sha256 effect
    refine ⟨?_,?_,h.broker,h.opened,fun x hx => ?_,fun a ha => ?_⟩
    · intro c hc
      obtain ⟨row,hrow,href⟩ := h.claims c hc
      exact ⟨row,houtbox ▸ hrow,href⟩
    · intro row hrow
      exact h.rows row (houtbox ▸ hrow)
    · rcases (inserted_mem hins).mp hx with rfl | hx
      · exact ⟨o.copy,h.opened o (List.mem_of_getElem? held),recorded_copy sha256 hi⟩
      · exact h.inbox x hx
    · rcases first_attempts sha256 effect ha with ha | hor
      · obtain ⟨x,hx,hax⟩ := h.attempts a ha
        exact ⟨x,(inserted_mem hins).mpr (Or.inr hx),hax⟩
      · obtain ⟨-,ht,hm,hj,-⟩ := recordsMessage_id hi
        refine ⟨i,(inserted_mem hins).mpr (Or.inl rfl),hor.trans ?_⟩
        rw [ht,hm,hj]

theorem run_sound (ops : List DeliveryOp) :
    Sound sha256 (run (deliveryStep sha256) ops .start) := by
  apply run_invariant (step_sound sha256)
  refine ⟨?_,?_,?_,?_,?_,?_⟩
  · intro c hc
    cases hc
  · intro o ho
    exact (not_mem_empty o ho).elim
  · intro c hc
    cases hc
  · intro o ho
    cases ho
  · intro i hi
    exact (not_mem_empty i hi).elim
  · intro a ha
    exact (not_mem_empty a ha).elim

theorem signedReference_fields {o : AIJobOutboxModel} {e : AIJobEnvelopeFields} {digest : Digest}
    (h : signedReference o = some (e,digest)) :
    o.tenantId = e.tenantId ∧ o.messageId = some e.messageId := by
  simp only [signedReference,Option.bind_eq_bind,Option.bind_eq_some_iff,Option.some.injEq,
    Prod.mk.injEq] at h
  obtain ⟨messageId,hm,correlationId,-,nonce,-,signature,-,issuedAt,-,d,-,rfl,-⟩ := h
  exact ⟨rfl,hm⟩

theorem copies_equal {p : Publishers} (h : ClaimsSound p) {c c' : ClaimedOutbox}
    (hc : c ∈ p.claims) (hc' : c' ∈ p.claims)
    (ht : c.envelope.value.tenantId = c'.envelope.value.tenantId)
    (hm : c.envelope.value.messageId = c'.envelope.value.messageId) :
    c.envelope.value = c'.envelope.value := by
  obtain ⟨o,ho,hr⟩ := h c hc
  obtain ⟨o',ho',hr'⟩ := h c' hc'
  obtain ⟨hot,hom⟩ := signedReference_fields hr.reference
  obtain ⟨hot',hom'⟩ := signedReference_fields hr'.reference
  have hsame : o = o' := by
    apply eq_of_clash ho ho'
    simp [aiJobOutbox,hot,hot',hom,hom',ht,hm]
  have href := hr.reference
  rw [hsame,hr'.reference] at href
  simp only [Option.some.injEq,Prod.mk.injEq] at href
  exact href.1.symm

def Seen (s : Store) (c : ClaimedOutbox) : Prop :=
  ∃ i ∈ s.inbox, i.tenantId = c.envelope.value.tenantId ∧
    i.messageId = c.envelope.value.messageId

theorem first_unseen (h : FirstEffect sha256 worker d s decision s') {i : AIJobInboxModel}
    (hi : i ∈ s.inbox) (ht : i.tenantId = d.tenantId) :
    i.messageId ≠ d.messageId := by
  intro hm
  obtain ⟨r,hr,hins⟩ := first_recorded sha256 h
  obtain ⟨-,hrt,hrm,-,-⟩ := recordsMessage_id hr
  have hclash := (inserted_fresh hins hi).2.1
  simp [aiJobInbox,hrt,hrm,ht,hm] at hclash

/-- A delivery of a recorded message changes nothing, whatever its lookup found. -/
theorem accept_seen {k : ℕ} {o : Opened} {q : Deliveries} (hk : q.opened[k]? = some o)
    (hseen : Seen q.store o.copy) (worker : WorkerService) (identity : Identity)
    (ids : DeliveryIds) (now timestamp : Time) :
    deliveryStep sha256 (.accept k worker identity ids now timestamp) q = q := by
  have heff := deliveryStep_effect sha256 (.accept k worker identity ids now timestamp) q
  generalize deliveryStep sha256 (.accept k worker identity ids now timestamp) q = q' at heff
  cases heff with
  | unchanged => rfl
  | recorded k worker identity ids now timestamp x decision s' held unseen effect =>
    rw [hk] at held
    cases held
    obtain ⟨i,hi,ht,hm⟩ := hseen
    exact absurd hm (first_unseen sha256 effect hi ht)

theorem acceptDelivery_seen {q : Deliveries} (h : Sound sha256 q) {c : ClaimedOutbox}
    (hc : c ∈ q.broker) (hseen : Seen q.store c) (worker : WorkerService) (identity : Identity)
    (ids : DeliveryIds) (now timestamp : Time) :
    acceptDelivery sha256 worker (deliveryOf c identity ids now timestamp) q.store =
      .ok (.ackDuplicate,q.store) := by
  obtain ⟨i,hi,ht,hm⟩ := hseen
  obtain ⟨c',hc',hrec⟩ := h.inbox i hi
  have hvalue : c.envelope.value = c'.envelope.value :=
    copies_equal h.claims (h.broker c hc) (h.broker c' hc') (ht.symm.trans hrec.tenant)
      (hm.symm.trans hrec.message)
  have hdigest : i.envelopeDigest = envelopeDigest sha256 c.envelope := by
    rw [hrec.digest,envelopeDigest,envelopeDigest,hvalue]
  have hrow : inboxRow c.envelope.value.tenantId c.envelope.value.messageId q.store = some i := by
    refine selectRow_eq hi (by simp [ht,hm]) fun s hs hp => ?_
    simp only [Bool.and_eq_true,beq_iff_eq] at hp
    apply eq_of_clash hs hi
    simp [aiJobInbox,hp.1,hp.2,ht,hm]
  refine bind_ok.mpr ⟨some i,q.store,read_ok.mpr ⟨hrow,rfl⟩,?_⟩
  exact pure_ok.mpr ⟨if_pos hdigest,rfl⟩

/-- The outbox rows have only advanced. -/
def Advances (p q : Deliveries) : Prop := RowsAdvance p.publishers q.publishers

instance : Std.Refl Advances := ⟨fun p => refl (r := RowsAdvance) p.publishers⟩

instance : IsTrans Deliveries Advances :=
  ⟨fun _ _ _ h k => IsTrans.trans (r := RowsAdvance) _ _ _ h k⟩

theorem step_advances (op : DeliveryOp) (p : Deliveries) :
    Advances p (deliveryStep sha256 op p) := by
  have heff := deliveryStep_effect sha256 op p
  generalize deliveryStep sha256 op p = p' at heff
  cases heff with
  | unchanged => exact refl (r := Advances) p
  | publisher op => exact step_advance sha256 op.1 p.publishers
  | published k claim held => exact refl (r := Advances) p
  | received k copy sent => exact refl (r := Advances) p
  | recorded k worker identity ids now timestamp o decision s' held unseen effect =>
    intro row hrow
    exact ⟨row,(first_outbox sha256 effect).symm ▸ hrow,rfl,outboxNext_refl row⟩

theorem material_next {o o' : AIJobOutboxModel} (h : OutboxNext o o') (hw : Whole o) :
    Unsigned o ∨ material o' = material o ∧ signedReference o' = signedReference o := by
  rcases hw with hun | hsome
  · exact Or.inl hun
  · refine Or.inr ⟨?_,signedReference_next h hsome⟩
    rcases h with rfl | hadv
    · rfl
    · exact hadv.signed (signedReference_isSome hsome)

/-- Between any two moments `p` and `q` of a run of publishers and workers: a
row's signing material is absent or whole and, once there, stays as it is; every
copy on the broker carries the material of its row; a message has at most one
inbox row and at most one attempt, which belongs to a job a copy was sent for;
and once a message is recorded, each further delivery of it changes nothing. -/
theorem delivered_once (ops₁ ops₂ : List DeliveryOp) :
    let p := run (deliveryStep sha256) ops₁ .start
    let q := run (deliveryStep sha256) ops₂ p
    (∀ o ∈ p.store.outbox, ∃ o' ∈ q.store.outbox, o'.id = o.id ∧
      (Unsigned o ∨ material o' = material o ∧ signedReference o' = signedReference o)) ∧
    (∀ o ∈ q.store.outbox, Unsigned o ∨ (signedReference o).isSome = true) ∧
    (∀ c ∈ q.broker, ∃ o ∈ q.store.outbox, o.id = c.id ∧
      signedReference o = some (c.envelope.value,c.envelopeDigest)) ∧
    (∀ tenantId messageId,
      q.store.inbox.rows.countP
        (fun i => i.tenantId == tenantId && i.messageId == messageId) ≤ 1 ∧
      q.store.attempts.rows.countP
        (fun a => a.tenantId == tenantId && a.triggerMessageId == messageId) ≤ 1) ∧
    (∀ a ∈ q.store.attempts, ∃ c ∈ q.broker, Seen q.store c ∧
      origin a = (c.envelope.value.tenantId,c.envelope.value.jobId,
        c.envelope.value.messageId)) ∧
    (∀ (k : ℕ) (o : Opened), q.opened[k]? = some o → Seen q.store o.copy →
      ∀ worker identity ids now timestamp,
        deliveryStep sha256 (.accept k worker identity ids now timestamp) q = q) ∧
    (∀ c ∈ q.broker, Seen q.store c → ∀ worker identity ids now timestamp,
      acceptDelivery sha256 worker (deliveryOf c identity ids now timestamp) q.store =
        .ok (.ackDuplicate,q.store)) := by
  intro p q
  have hp : Sound sha256 p := run_sound sha256 ops₁
  have hq : Sound sha256 q := by
    rw [show q = run (deliveryStep sha256) (ops₁++ops₂) .start from
      (run_append (deliveryStep sha256) ops₁ ops₂ _).symm]
    exact run_sound sha256 (ops₁++ops₂)
  have hadv : Advances p q := run_related (step_advances sha256) ops₂ p
  refine ⟨fun o ho => ?_,hq.rows,fun c hc => ?_,fun tenantId messageId => ⟨?_,?_⟩,fun a ha => ?_,
    fun k o hk hseen => accept_seen sha256 hk hseen,
    fun c hc hseen => acceptDelivery_seen sha256 hq hc hseen⟩
  · obtain ⟨o',ho',hid,hnext⟩ := hadv o ho
    exact ⟨o',ho',hid,material_next hnext (hp.rows o ho)⟩
  · obtain ⟨o,ho,hr⟩ := hq.claims c (hq.broker c hc)
    exact ⟨o,ho,hr.id,hr.reference⟩
  · refine countP_le_one q.store.inbox.legal.2 _ fun i k hi hk hap => ?_
    simp only [Bool.and_eq_true,beq_iff_eq] at hi hk
    have hclash := hap.2.1
    simp [aiJobInbox,hi.1,hi.2,hk.1,hk.2] at hclash
  · refine countP_le_one q.store.attempts.legal.2 _ fun a b ha hb hap => ?_
    simp only [Bool.and_eq_true,beq_iff_eq] at ha hb
    have hclash := hap.2.1
    simp [aiJobAttempts,ha.1,ha.2,hb.1,hb.2] at hclash
  · obtain ⟨i,hi,hor⟩ := hq.attempts a ha
    obtain ⟨c,hc,hrec⟩ := hq.inbox i hi
    refine ⟨c,hc,⟨i,hi,hrec.tenant,hrec.message⟩,hor.trans ?_⟩
    rw [hrec.tenant,hrec.job,hrec.message]

end LawyerAgent.AIJobDelivery
