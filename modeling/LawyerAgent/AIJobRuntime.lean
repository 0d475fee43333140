import LawyerAgent.AIJobAuthority

/-!
# Delivery of a job message

`acceptDelivery` in one transaction: look the message up in the inbox, record
it when it is new, reload the authority of the job and claim it. The lookup
reads the snapshot the transaction opened with, so what it found is given to
the rest, which reads and writes the current rows.
-/

set_option autoImplicit false

namespace LawyerAgent.AIJobRuntime
open Relational Common AIJobDomain AIJobTables
open AIJobRepository AIJobOperations AIJobAuthority
open Envelope IdentityTables

inductive DeliveryDecision where
  | ackDuplicate
  | ackTerminal
  | ackClaimed
  | rejectNoRequeue
deriving DecidableEq, Repr

structure WorkerServiceFields where
  workerInstanceRef : String
  leaseSeconds : ℤ := 60

def workerServiceChecks : Checks WorkerServiceFields := fun w =>
  [(w.workerInstanceRef ≠ "","worker instance ref must be non-empty text"),
   (1 ≤ w.leaseSeconds,"worker lease seconds must be a positive integer")]

abbrev WorkerService : Type := Checked workerServiceChecks

/-- The identifiers drawn by one delivery. -/
structure DeliveryIds where
  inboxId : UUID7
  leaseToken : UUID7
  attemptId : UUID7

structure Delivery where
  tenantId : UUID7
  messageId : UUID7
  jobId : UUID7
  envelope : AIJobEnvelope
  identity : Identity
  ids : DeliveryIds
  now : Time
  currentTimestamp : Time

section Accept

variable (sha256 : List UInt8 → Digest) (w : WorkerService) (d : Delivery)

/-- The nonce is Base64URL text, one byte for each character. -/
def nonceDigest (e : AIJobEnvelope) : Digest :=
  sha256 (e.value.nonce.toList.map fun c => c.toNat.toUInt8)

def claimRequest (job : AIJobFields) : ClaimJobFields where
  tenantId := d.tenantId
  jobId := d.jobId
  workerInstanceRef := w.value.workerInstanceRef
  leaseToken := d.ids.leaseToken
  leaseFence := job.leaseFence.getD 0+1
  attemptId := d.ids.attemptId
  attemptNo := job.currentAttemptNo+1
  triggerMessageId := d.messageId
  handlerCode := job.handlerCode
  handlerVersion := job.handlerVersion
  startedAt := d.now
  leaseExpiresAt := d.now+seconds w.value.leaseSeconds

def denyDelivery (job : AIJobFields) (reasonCode : String) : StoreTx DeliveryDecision := do
  let _ ← completeInboxTerminal d.ids.inboxId (some reasonCode) d.now
  if job.status ∈ claimableStatuses then
    let _ ← failJobWithoutAttempt d.tenantId d.jobId "authorization" reasonCode d.now
    pure .ackTerminal
  else pure .ackTerminal

def claimDelivery (job : AIJobFields) : StoreTx DeliveryDecision := do
  let request ← ofExcept .valueError (postInit claimJobChecks (claimRequest w d job))
  let outcome ← claimDueJob request d.currentTimestamp
  match outcome with
  | .rejected reasonCode => do
    let _ ← completeInboxTerminal d.ids.inboxId (some reasonCode) d.now
    pure .ackTerminal
  | .claimed execution => do
    let _ ← bindInboxProcessing d.ids.inboxId execution.attemptId execution.leaseFence d.now
    pure .ackClaimed

def acceptDeliveryAfter (existing : Option AIJobInboxModel) : StoreTx DeliveryDecision :=
  match existing with
  | some row =>
    pure (if row.envelopeDigest = envelopeDigest sha256 d.envelope then .ackDuplicate
      else .rejectNoRequeue)
  | none => do
    insertInboxAccepted d.ids.inboxId d.tenantId d.messageId d.jobId
      (envelopeDigest sha256 d.envelope) (nonceDigest sha256 d.envelope) d.now
    let authority ← load d.identity d.tenantId d.jobId
    let decision := authorize authority d.now
    if decision.allowed = false then denyDelivery d authority.job.value decision.reasonCode
    else claimDelivery w d authority.job.value

def acceptDelivery : StoreTx DeliveryDecision := do
  let existing ← read (inboxRow d.tenantId d.messageId)
  acceptDeliveryAfter sha256 w d existing

end Accept

/-- The inbox row a message leaves, whatever became of it. -/
def RecordsMessage (sha256 : List UInt8 → Digest) (d : Delivery) (i : AIJobInboxModel) : Prop :=
  ∃ status attemptId fence completedAt rejectionCode,
    i = {acceptedInbox d.ids.inboxId d.tenantId d.messageId d.jobId
        (envelopeDigest sha256 d.envelope) (nonceDigest sha256 d.envelope) d.now with
      status := status
      handlingAttemptId := attemptId
      handlingFence := fence
      completedAt := completedAt
      rejectionCode := rejectionCode}

theorem inserted_replaced {t u v : Table aiJobInbox} {r r' : AIJobInboxModel}
    (h : Inserted r t u) (k : Replaced r r' u v) : Inserted r' t v := by
  have hother : ∀ x ∈ t.rows, (if x.id = r.id then r' else x) = x := fun x hx =>
    if_neg fun hid => (inserted_fresh h hx).1 hid.symm
  calc v.rows = u.rows.map fun x => if x.id = r.id then r' else x := k.rows
    _ = (r::t.rows).map fun x => if x.id = r.id then r' else x := by rw [h]
    _ = r'::t.rows.map fun x => if x.id = r.id then r' else x := by
      rw [List.map_cons,if_pos rfl]
    _ = r'::t.rows.map id := by rw [List.map_congr_left hother]; rfl
    _ = r'::t.rows := by rw [List.map_id]

variable {f : AIJobInboxModel → AIJobInboxModel} {inboxId : UUID7} {s s' : Store}
  {i : AIJobInboxModel} {decision : DeliveryDecision}

theorem inboxUpdate_ok {p : AIJobInboxModel → Bool} {n : ℕ}
    (h : zoom inboxOf (updateRows AIJobFailure.integrityError p f) s = .ok (n,s'))
    (hp : ∀ i, p i = true → i.id = inboxId) (hf : ∀ i, (f i).id = i.id) :
    s' = {s with inbox := s'.inbox} ∧
    (s'.inbox = s.inbox ∨ ∃ i, i.id = inboxId ∧ Replaced i (f i) s.inbox s'.inbox) := by
  obtain ⟨t,ht,rfl⟩ := zoom_ok.mp h
  rcases updateRows_keyed ht inboxId hp hf with ⟨-,rfl,-⟩ | ⟨-,i,hi,hrep⟩
  · exact ⟨rfl,Or.inl rfl⟩
  · exact ⟨rfl,Or.inr ⟨i,hp i hi,hrep⟩⟩

theorem unboundInbox_id {statuses : List InboxStatus} (h : unboundInbox inboxId statuses i = true) :
    i.id = inboxId := by
  simp only [unboundInbox,Bool.and_eq_true,beq_iff_eq] at h
  exact h.1.1.1

theorem completeInboxTerminal_ok {rejectionCode : Option String} {now : Time} {b : Bool}
    (h : completeInboxTerminal inboxId rejectionCode now s = .ok (b,s')) :
    s' = {s with inbox := s'.inbox} ∧ (s'.inbox = s.inbox ∨ ∃ i, i.id = inboxId ∧
      Replaced i (completedInbox rejectionCode now i) s.inbox s'.inbox) := by
  obtain ⟨n,s₁,h₁,hk⟩ := bind_ok.mp h
  obtain ⟨-,rfl⟩ := pure_ok.mp hk
  exact inboxUpdate_ok h₁ (fun _ => unboundInbox_id) fun _ => rfl

theorem bindInboxProcessing_ok {inboxId attemptId : UUID7} {fence : ℕ} {now : Time} {b : Bool}
    (h : bindInboxProcessing inboxId attemptId fence now s = .ok (b,s')) :
    s' = {s with inbox := s'.inbox} ∧ (s'.inbox = s.inbox ∨ ∃ i, i.id = inboxId ∧
      Replaced i (processingInbox attemptId fence now i) s.inbox s'.inbox) := by
  obtain ⟨n,s₁,h₁,hk₁⟩ := bind_ok.mp h
  obtain ⟨bound,s₂,h₂,hk₂⟩ := bind_ok.mp hk₁
  obtain ⟨-,rfl⟩ := read_ok.mp h₂
  obtain ⟨_,s₃,h₃,hk₃⟩ := bind_ok.mp hk₂
  obtain ⟨-,rfl⟩ := require_ok.mp h₃
  obtain ⟨-,rfl⟩ := pure_ok.mp hk₃
  exact inboxUpdate_ok h₁ (fun _ => unboundInbox_id) fun _ => rfl

variable {sha256 : List UInt8 → Digest} {w : WorkerService} {d : Delivery}

theorem recordsMessage_accepted :
    RecordsMessage sha256 d (acceptedInbox d.ids.inboxId d.tenantId d.messageId d.jobId
      (envelopeDigest sha256 d.envelope) (nonceDigest sha256 d.envelope) d.now) :=
  ⟨_,_,_,_,_,rfl⟩

theorem recordsMessage_id (h : RecordsMessage sha256 d i) :
    i.id = d.ids.inboxId ∧ i.tenantId = d.tenantId ∧ i.messageId = d.messageId ∧
    i.jobId = d.jobId ∧ i.envelopeDigest = envelopeDigest sha256 d.envelope := by
  obtain ⟨status,attemptId,fence,completedAt,rejectionCode,rfl⟩ := h
  exact ⟨rfl,rfl,rfl,rfl,rfl⟩

theorem recordsMessage_completed (rejectionCode : Option String) (h : RecordsMessage sha256 d i) :
    RecordsMessage sha256 d (completedInbox rejectionCode d.now i) := by
  obtain ⟨status,attemptId,fence,completedAt,code,rfl⟩ := h
  exact ⟨_,_,_,_,_,rfl⟩

theorem recordsMessage_processing (attemptId : UUID7) (fence : ℕ) (h : RecordsMessage sha256 d i) :
    RecordsMessage sha256 d (processingInbox attemptId fence d.now i) := by
  obtain ⟨status,attempt,f,completedAt,code,rfl⟩ := h
  exact ⟨_,_,_,_,_,rfl⟩

/-- The inbox has one more row, the record of the message. -/
def Recorded (sha256 : List UInt8 → Digest) (d : Delivery) (s s' : Store) : Prop :=
  ∃ i, RecordsMessage sha256 d i ∧ Inserted i s.inbox s'.inbox

theorem recorded_moved {s u v : Store} (h : Recorded sha256 d s u)
    (hf : ∀ i, RecordsMessage sha256 d i → RecordsMessage sha256 d (f i))
    (k : v.inbox = u.inbox ∨ ∃ i, i.id = d.ids.inboxId ∧ Replaced i (f i) u.inbox v.inbox) :
    Recorded sha256 d s v := by
  obtain ⟨i,hi,hins⟩ := h
  rcases k with hsame | ⟨x,hx,hrep⟩
  · exact ⟨i,hi,by rw [hsame]; exact hins⟩
  · have hxi : x = i := by
      refine eq_of_key hrep.mem ((inserted_mem hins).mpr (Or.inl rfl)) ?_
      exact hx.trans (recordsMessage_id hi).1.symm
    subst hxi
    exact ⟨f x,hf x hi,inserted_replaced hins hrep⟩

theorem insertInboxAccepted_ok
    (h : insertInboxAccepted d.ids.inboxId d.tenantId d.messageId d.jobId (envelopeDigest sha256
      d.envelope) (nonceDigest sha256 d.envelope) d.now s = .ok ((),s')) :
    Recorded sha256 d s s' ∧ s' = {s with inbox := s'.inbox} := by
  obtain ⟨_,s₁,h₁,hk₁⟩ := bind_ok.mp h
  obtain ⟨_,s₂,h₂,hk₂⟩ := bind_ok.mp h₁
  obtain ⟨-,rfl⟩ := read_ok.mp h₂
  obtain ⟨-,rfl⟩ := require_ok.mp hk₂
  obtain ⟨t,ht,rfl⟩ := zoom_ok.mp hk₁
  rw [insertRow_ok] at ht
  exact ⟨⟨_,recordsMessage_accepted,ht⟩,rfl⟩

/-- What the first delivery of a message leaves, by its decision. -/
inductive FirstEffect (sha256 : List UInt8 → Digest) (w : WorkerService) (d : Delivery)
    (s : Store) : DeliveryDecision → Store → Prop where
  | denied (authority : JobAuthoritySnapshot) (s' : Store)
      (loaded : load d.identity d.tenantId d.jobId s = .ok (authority,s))
      (decision : (authorize authority d.now).allowed = false)
      (recorded : Recorded sha256 d s s')
      (jobs : s'.jobs = s.jobs ∨ ∃ j, unstarted d.tenantId d.jobId j = true ∧
        Replaced j (failedJob "authorization" (authorize authority d.now).reasonCode d.now j)
          s.jobs s'.jobs)
      (frame : s' = {s with jobs := s'.jobs, inbox := s'.inbox}) :
      FirstEffect sha256 w d s .ackTerminal s'
  | rejected (authority : JobAuthoritySnapshot) (s' : Store)
      (loaded : load d.identity d.tenantId d.jobId s = .ok (authority,s))
      (decision : (authorize authority d.now).allowed = true)
      (recorded : Recorded sha256 d s s')
      (frame : s' = {s with inbox := s'.inbox}) :
      FirstEffect sha256 w d s .ackTerminal s'
  | claimed (authority : JobAuthoritySnapshot) (j : AIJobModel) (s' : Store)
      (loaded : load d.identity d.tenantId d.jobId s = .ok (authority,s))
      (decision : (authorize authority d.now).allowed = true)
      (recorded : Recorded sha256 d s s')
      (guard : claimable (claimRequest w d authority.job.value) j = true)
      (job : Replaced j (claimedJob (claimRequest w d authority.job.value) j) s.jobs s'.jobs)
      (attempt : Inserted (attemptModel (claimRequest w d authority.job.value)
        d.currentTimestamp) s.attempts s'.attempts)
      (frame : s' = {s with jobs := s'.jobs, attempts := s'.attempts, inbox := s'.inbox}) :
      FirstEffect sha256 w d s .ackClaimed s'

/-- An authority does not depend on the inbox. -/
theorem load_inbox {identity : Identity} {tenantId jobId : UUID7} {snapshot : JobAuthoritySnapshot}
    {inbox : Table aiJobInbox}
    (h : load identity tenantId jobId {s with inbox := inbox} = .ok (snapshot,s')) :
    load identity tenantId jobId s = .ok (snapshot,s) := by
  obtain ⟨-,j,g,user,tenant,m,hl,hs⟩ := load_ok.mp h
  exact load_ok.mpr ⟨rfl,j,g,user,tenant,m,⟨hl.1,hl.2,hl.3,hl.4,hl.5⟩,hs⟩

theorem denyDelivery_ok {job : AIJobFields} {reasonCode : String}
    (h : denyDelivery d job reasonCode s = .ok (decision,s')) :
    decision = .ackTerminal ∧ s' = {s with jobs := s'.jobs, inbox := s'.inbox} ∧
    (s'.inbox = s.inbox ∨ ∃ i, i.id = d.ids.inboxId ∧
      Replaced i (completedInbox (some reasonCode) d.now i) s.inbox s'.inbox) ∧
    (s'.jobs = s.jobs ∨ ∃ j, unstarted d.tenantId d.jobId j = true ∧
      Replaced j (failedJob "authorization" reasonCode d.now j) s.jobs s'.jobs) := by
  obtain ⟨b,s₁,h₁,hk₁⟩ := bind_ok.mp h
  obtain ⟨hframe,hinbox⟩ := completeInboxTerminal_ok h₁
  have hjobs : s₁.jobs = s.jobs := by rw [hframe]
  by_cases hs : job.status ∈ claimableStatuses
  · rw [if_pos hs] at hk₁
    obtain ⟨b',s₂,h₂,hk₂⟩ := bind_ok.mp hk₁
    obtain ⟨rfl,rfl⟩ := pure_ok.mp hk₂
    rcases failJobWithoutAttempt_ok h₂ with ⟨-,rfl⟩ | ⟨-,j,hj,hrep,hframe₂⟩
    · exact ⟨rfl,by rw [hframe],hinbox,Or.inl hjobs⟩
    · have hsame : s₂.inbox = s₁.inbox := by rw [hframe₂]
      rw [hjobs] at hrep
      refine ⟨rfl,?_,by rw [hsame]; exact hinbox,Or.inr ⟨j,hj,hrep⟩⟩
      rw [hframe₂,hframe]
  · rw [if_neg hs] at hk₁
    obtain ⟨rfl,rfl⟩ := pure_ok.mp hk₁
    exact ⟨rfl,by rw [hframe],hinbox,Or.inl hjobs⟩

theorem acceptDeliveryAfter_first (h : acceptDeliveryAfter sha256 w d none s = .ok (decision,s')) :
    FirstEffect sha256 w d s decision s' := by
  obtain ⟨_,s₁,h₁,hk₁⟩ := bind_ok.mp h
  obtain ⟨hrec,hframe₁⟩ := insertInboxAccepted_ok h₁
  obtain ⟨authority,s₂,h₂,hk₂⟩ := bind_ok.mp hk₁
  obtain ⟨rfl,-⟩ := load_ok.mp h₂
  have hload : load d.identity d.tenantId d.jobId s = .ok (authority,s) := by
    rw [hframe₁] at h₂
    exact load_inbox h₂
  have hjobs : s₂.jobs = s.jobs := by rw [hframe₁]
  have hattempts : s₂.attempts = s.attempts := by rw [hframe₁]
  by_cases hdenied : (authorize authority d.now).allowed = false
  · rw [if_pos hdenied] at hk₂
    obtain ⟨rfl,hframe,hinbox,hj⟩ := denyDelivery_ok hk₂
    rw [hjobs] at hj
    refine .denied authority s' hload hdenied
      (recorded_moved hrec (fun _ => recordsMessage_completed _) hinbox) hj ?_
    rw [hframe,hframe₁]
  · rw [if_neg hdenied] at hk₂
    have hallowed : (authorize authority d.now).allowed = true := by simpa using hdenied
    obtain ⟨request,s₃,h₃,hk₃⟩ := bind_ok.mp hk₂
    obtain ⟨hrequest,rfl⟩ := ofExcept_ok.mp h₃
    obtain ⟨outcome,s₄,h₄,hk₄⟩ := bind_ok.mp hk₃
    have hvalue := postInit_ok hrequest
    rcases claimDueJob_ok h₄ with ⟨rfl,rfl,-⟩ | ⟨e,j,rfl,-,-,-,hguard,hjob,hattempt,hframe₄⟩
    · obtain ⟨b,s₅,h₅,hk₅⟩ := bind_ok.mp hk₄
      obtain ⟨rfl,rfl⟩ := pure_ok.mp hk₅
      obtain ⟨hframe,hinbox⟩ := completeInboxTerminal_ok h₅
      refine .rejected authority s₅ hload hallowed
        (recorded_moved hrec (fun _ => recordsMessage_completed _) hinbox) ?_
      rw [hframe,hframe₁]
    · obtain ⟨b,s₅,h₅,hk₅⟩ := bind_ok.mp hk₄
      obtain ⟨rfl,rfl⟩ := pure_ok.mp hk₅
      obtain ⟨hframe,hinbox⟩ := bindInboxProcessing_ok h₅
      have hsame : s₄.inbox = s₂.inbox := by rw [hframe₄]
      have hjobs₅ : s₅.jobs = s₄.jobs := by rw [hframe]
      have hattempts₅ : s₅.attempts = s₄.attempts := by rw [hframe]
      rw [hsame] at hinbox
      rw [hvalue,hjobs,← hjobs₅] at hjob
      rw [hvalue,hattempts,← hattempts₅] at hattempt
      rw [hvalue] at hguard
      refine .claimed authority j s₅ hload hallowed
        (recorded_moved hrec (fun _ => recordsMessage_processing _ _) hinbox) hguard hjob
        hattempt ?_
      rw [hframe,hframe₄,hframe₁]

theorem acceptDeliveryAfter_known {row : AIJobInboxModel}
    (h : acceptDeliveryAfter sha256 w d (some row) s = .ok (decision,s')) :
    s' = s ∧ decision = if row.envelopeDigest = envelopeDigest sha256 d.envelope then
      .ackDuplicate else .rejectNoRequeue := by
  obtain ⟨rfl,rfl⟩ := pure_ok.mp h
  exact ⟨rfl,rfl⟩

theorem first_jobEffect (h : FirstEffect sha256 w d s decision s') :
    ∃ u, JobEffect s u ∧ s' = {u with inbox := s'.inbox} := by
  cases h with
  | denied authority s' loaded decision recorded jobs frame =>
    refine ⟨{s with jobs := s'.jobs},?_,frame⟩
    rcases jobs with hsame | ⟨j,hj,hrep⟩
    · exact .unchanged (by rw [hsame])
    · exact .ended _ _ j _ hj (Or.inl ⟨_,_,_,rfl⟩) hrep rfl
  | rejected authority s' loaded decision recorded frame => exact ⟨s,.unchanged rfl,frame⟩
  | claimed authority j s' loaded decision recorded guard job attempt frame =>
    exact ⟨{s with jobs := s'.jobs, attempts := s'.attempts},
      .claimed _ _ j guard job attempt rfl,frame⟩

end LawyerAgent.AIJobRuntime
