import LawyerAgent.AIJobRuntime
import LawyerAgent.EnvelopeDelivery

/-!
# The job consumer

`AioPikaJobConsumer._on_message` reads a delivery, verifies its envelope and
hands it to the accept handler. The handler and the observer of rejections may
raise anything. A delivery is settled by the calls of `ack` and `reject`; an
exception that leaves the method is not followed by either.
-/

set_option autoImplicit false

namespace LawyerAgent.DeliveryConsumer
open Common WireEnvelope EnvelopeSigning
open EnvelopeDelivery
open AIJobRuntime (DeliveryDecision)

variable {ε : Type}

inductive Settlement where
  | ack
  | reject (requeue : Bool)
deriving DecidableEq

inductive Raised (ε : Type) where
  | codec (message : String)
  | signature (error : EnvelopeError)
  | observer (error : ε)
  | handler (error : ε)

/-- `onReject` and `accept` give what the callables do on their arguments. -/
structure Consumer (ε : Type) where
  packages : Packages
  scheme : Ed25519
  verifyRing : EnvelopeSigning.Ring
  accept : AIJobEnvelope → Time → Except ε DeliveryDecision
  onReject : Option (RawDelivery → String → Except ε Unit)

structure IncomingMessage where
  body : List UInt8
  contentType : Option String
  receivedAt : Time

/-- The settlements that were made, in order, and how the method ended. -/
structure Handled (ε : Type) where
  settlements : List Settlement
  outcome : Except (Raised ε) Unit

def rawDelivery (message : IncomingMessage) : RawDelivery :=
  ⟨message.body,message.contentType.getD ""⟩

def Consumer.observeReject (k : Consumer ε) (raw : RawDelivery) (code : String) :
    Except ε Unit :=
  match k.onReject with
  | none => .ok ()
  | some observe => observe raw code

/-- `_observe_reject` and then `message.reject(requeue=False)` -/
def Consumer.rejectObserved (k : Consumer ε) (raw : RawDelivery) (code : String) : Handled ε :=
  match k.observeReject raw code with
  | .error error => ⟨[],.error (.observer error)⟩
  | .ok () => ⟨[.reject false],.ok ()⟩

def Consumer.acceptVerified (k : Consumer ε) (message : IncomingMessage)
    (envelope : AIJobEnvelope) : Handled ε :=
  match k.accept envelope message.receivedAt with
  | .error error => ⟨[],.error (.handler error)⟩
  | .ok decision =>
    if decision = .rejectNoRequeue then
      k.rejectObserved (rawDelivery message) "delivery_rejected"
    else ⟨[.ack],.ok ()⟩

def Consumer.onMessage (k : Consumer ε) (message : IncomingMessage) : Handled ε :=
  match readDelivery k.packages (rawDelivery message) with
  | .error (.rejected code) => k.rejectObserved (rawDelivery message) code
  | .error (.valueError text) => ⟨[],.error (.codec text)⟩
  | .ok envelope =>
    match verify k.scheme k.verifyRing envelope.value with
    | .error (.envelopeSignatureError _) =>
      k.rejectObserved (rawDelivery message) "envelope_signature_error"
    | .error .assertionError => ⟨[],.error (.signature .assertionError)⟩
    | .ok _ => k.acceptVerified message envelope

def Verified (k : Consumer ε) (message : IncomingMessage) (envelope : AIJobEnvelope) : Prop :=
  readDelivery k.packages (rawDelivery message) = .ok envelope ∧
  ∃ verified, verify k.scheme k.verifyRing envelope.value = .ok verified

inductive TurnedAway (k : Consumer ε) (message : IncomingMessage) : String → Prop
  | unreadable (code : String)
      (read : readDelivery k.packages (rawDelivery message) = .error (.rejected code)) :
      TurnedAway k message code
  | unverified (envelope : AIJobEnvelope) (text : String)
      (read : readDelivery k.packages (rawDelivery message) = .ok envelope)
      (checked : verify k.scheme k.verifyRing envelope.value =
        .error (.envelopeSignatureError text)) :
      TurnedAway k message "envelope_signature_error"
  | refused (envelope : AIJobEnvelope) (verified : Verified k message envelope)
      (decision : k.accept envelope message.receivedAt = .ok .rejectNoRequeue) :
      TurnedAway k message "delivery_rejected"

/-- Neither the codec nor a callable raises on this delivery. -/
structure Quiet (k : Consumer ε) (message : IncomingMessage) : Prop where
  dated : ∀ text, readDelivery k.packages (rawDelivery message) ≠ .error (.valueError text)
  handled : ∀ envelope, Verified k message envelope →
    ∃ decision, k.accept envelope message.receivedAt = .ok decision
  observed : ∀ code, TurnedAway k message code →
    k.observeReject (rawDelivery message) code = .ok ()

def SettledOnce (h : Handled ε) : Prop := ∃ settlement, h.settlements = [settlement]

theorem rejectObserved_settled (k : Consumer ε) (raw : RawDelivery) (code : String) :
    SettledOnce (k.rejectObserved raw code) ↔ k.observeReject raw code = .ok () := by
  unfold Consumer.rejectObserved
  cases k.observeReject raw code with
  | error error => simp [SettledOnce]
  | ok u => simp [SettledOnce]

theorem acceptVerified_settled (k : Consumer ε) (message : IncomingMessage)
    (envelope : AIJobEnvelope) : SettledOnce (k.acceptVerified message envelope) ↔
      ∃ decision, k.accept envelope message.receivedAt = .ok decision ∧
        (decision = .rejectNoRequeue →
          k.observeReject (rawDelivery message) "delivery_rejected" = .ok ()) := by
  unfold Consumer.acceptVerified
  cases k.accept envelope message.receivedAt with
  | error error => simp [SettledOnce]
  | ok decision =>
    by_cases hd : decision = .rejectNoRequeue
    · simp [hd,rejectObserved_settled]
    · simp [hd,SettledOnce]

theorem signatureBytes_error {signature : String} {error : EnvelopeError}
    (h : signatureBytes signature = .error error) :
    error = .envelopeSignatureError "invalid signature encoding" := by
  unfold signatureBytes at h
  simp only at h
  split at h
  · cases h
  · cases h
    rfl

theorem verify_asserts (C : Ed25519) (ring : EnvelopeSigning.Ring) (envelope : AIJobEnvelope) :
    verify C ring envelope.value ≠ .error .assertionError := by
  intro h
  have hsome : (Envelope.signatureKid envelope.value.signature).isSome = true := by
    have hc := firstError_none envelope.valid
      (c := ((Envelope.signatureKid envelope.value.signature).isSome,
        "signature must use the ed25519.<kid>.<base64url> form"))
      (by simp [aiJobEnvelopeChecks])
    exact hc
  obtain ⟨kid,hkid⟩ := Option.isSome_iff_exists.mp hsome
  unfold verify at h
  rw [hkid] at h
  simp only at h
  split at h
  · cases h
  · split at h
    · cases h
    · split at h
      · rename_i error herror
        rw [signatureBytes_error herror] at h
        cases h
      · split at h <;> cases h

section Settled

variable {k : Consumer ε} {message : IncomingMessage}

theorem unreadable_settled {code : String}
    (h : readDelivery k.packages (rawDelivery message) = .error (.rejected code)) :
    SettledOnce (k.onMessage message) ↔ Quiet k message := by
  simp only [Consumer.onMessage,h,rejectObserved_settled]
  constructor
  · intro hobserved
    refine ⟨?_,?_,?_⟩
    · intro text ht
      cases h.symm.trans ht
    · intro envelope hv
      cases h.symm.trans hv.1
    · intro code' haway
      cases haway with
      | unreadable _ read =>
        cases h.symm.trans read
        exact hobserved
      | unverified envelope text read checked => cases h.symm.trans read
      | refused envelope verified decision => cases h.symm.trans verified.1
  · intro hquiet
    exact hquiet.observed code (.unreadable code h)

theorem unverified_settled {envelope : AIJobEnvelope} {text : String}
    (h : readDelivery k.packages (rawDelivery message) = .ok envelope)
    (hv : verify k.scheme k.verifyRing envelope.value = .error (.envelopeSignatureError text)) :
    SettledOnce (k.onMessage message) ↔ Quiet k message := by
  simp only [Consumer.onMessage,h,hv,rejectObserved_settled]
  have hnone : ∀ other, ¬Verified k message other := by
    rintro other ⟨hread,verified,hother⟩
    cases h.symm.trans hread
    cases hv.symm.trans hother
  constructor
  · intro hobserved
    refine ⟨?_,?_,?_⟩
    · intro text ht
      cases h.symm.trans ht
    · intro other hother
      exact absurd hother (hnone other)
    · intro code haway
      cases haway with
      | unreadable _ read => cases h.symm.trans read
      | unverified other text read checked => exact hobserved
      | refused other verified decision => exact absurd verified (hnone other)
  · intro hquiet
    exact hquiet.observed _ (.unverified envelope text h hv)

theorem verified_settled {envelope : AIJobEnvelope} {verified : AIJobEnvelopeFields}
    (h : readDelivery k.packages (rawDelivery message) = .ok envelope)
    (hv : verify k.scheme k.verifyRing envelope.value = .ok verified) :
    SettledOnce (k.onMessage message) ↔ Quiet k message := by
  simp only [Consumer.onMessage,h,hv,acceptVerified_settled]
  constructor
  · rintro ⟨decision,haccept,hobserved⟩
    refine ⟨?_,?_,?_⟩
    · intro text ht
      cases h.symm.trans ht
    · intro other hother
      cases h.symm.trans hother.1
      exact ⟨decision,haccept⟩
    · intro code haway
      cases haway with
      | unreadable _ read => cases h.symm.trans read
      | unverified other text read checked =>
        cases h.symm.trans read
        cases hv.symm.trans checked
      | refused other hother hdecision =>
        cases h.symm.trans hother.1
        cases haccept.symm.trans hdecision
        exact hobserved rfl
  · intro hquiet
    have hverified : Verified k message envelope := ⟨h,verified,hv⟩
    obtain ⟨decision,haccept⟩ := hquiet.handled envelope hverified
    refine ⟨decision,haccept,?_⟩
    rintro rfl
    exact hquiet.observed _ (.refused envelope hverified haccept)

end Settled

theorem rejectObserved_once (k : Consumer ε) (raw : RawDelivery) (code : String) :
    (k.rejectObserved raw code).settlements.length ≤ 1 := by
  unfold Consumer.rejectObserved
  split <;> simp

theorem onMessage_once (k : Consumer ε) (message : IncomingMessage) :
    (k.onMessage message).settlements.length ≤ 1 := by
  unfold Consumer.onMessage
  split
  · exact rejectObserved_once k _ _
  · simp
  · split
    · exact rejectObserved_once k _ _
    · simp
    · unfold Consumer.acceptVerified
      split
      · simp
      · split
        · exact rejectObserved_once k _ _
        · simp

/-- No delivery is settled twice, and it is settled exactly where nothing raises. -/
theorem settled_when_quiet (k : Consumer ε) (message : IncomingMessage) :
    (k.onMessage message).settlements.length ≤ 1 ∧
    (SettledOnce (k.onMessage message) ↔ Quiet k message) := by
  refine ⟨onMessage_once k message,?_⟩
  cases hread : readDelivery k.packages (rawDelivery message) with
  | error error =>
    cases error with
    | rejected code => exact unreadable_settled hread
    | valueError text =>
      simp only [Consumer.onMessage,hread,SettledOnce]
      constructor
      · rintro ⟨settlement,hs⟩
        cases hs
      · intro hquiet
        exact absurd hread (hquiet.dated text)
  | ok envelope =>
    cases hv : verify k.scheme k.verifyRing envelope.value with
    | error error =>
      cases error with
      | assertionError => exact absurd hv (verify_asserts _ _ envelope)
      | envelopeSignatureError text => exact unverified_settled hread hv
    | ok verified => exact verified_settled hread hv

def unavailableConsumer : Consumer String where
  packages := plainPackages
  scheme := sampleScheme
  verifyRing := [("dev",List.replicate 32 1)]
  accept := fun _ _ => .error "job_authority_unavailable"
  onReject := none

def sampleMessage : IncomingMessage :=
  ⟨wireBody sampleEnvelope.value,some "application/json",0⟩

theorem sample_verified : Verified unavailableConsumer sampleMessage sampleEnvelope := by
  constructor
  · have hsize : requireSizeAndContentType (rawDelivery sampleMessage) =
        .ok (rawDelivery sampleMessage) := by
      have hlength : ¬(wireBody sampleEnvelope.value = [] ∨
          maxDeliveryBodyBytes < (wireBody sampleEnvelope.value).length) := by decide +kernel
      have htype : ¬(rawDelivery sampleMessage).contentType ≠ "application/json" :=
        not_not_intro rfl
      rw [requireSizeAndContentType,if_neg htype]
      exact if_neg hlength
    change readDelivery plainPackages (rawDelivery sampleMessage) = _
    rw [readDelivery,hsize]
    exact parse_wire plainPackages_lawful sampleEnvelope "application/json"
  · have hzeros : sampleScheme.verify (List.replicate 32 1) (List.replicate 64 0)
        (canonicalBytes sampleEnvelope.value) = true :=
      oneMessageScheme_zeros _ (List.replicate 32 1)
    exact ⟨_,verify_ok_iff.mpr ⟨"dev",List.replicate 32 1,List.replicate 64 0,by decide +kernel,
      rfl,by decide,by decide +kernel,hzeros,rfl⟩⟩

/-- A delivery whose handler raises is neither acknowledged nor rejected. -/
theorem raising_unsettled :
    ¬∀ (k : Consumer String) (message : IncomingMessage), SettledOnce (k.onMessage message) := by
  intro h
  obtain ⟨verified,hv⟩ := sample_verified.2
  have hquiet := (verified_settled sample_verified.1 hv).mp (h unavailableConsumer sampleMessage)
  obtain ⟨decision,hdecision⟩ := hquiet.handled sampleEnvelope sample_verified
  cases hdecision

end LawyerAgent.DeliveryConsumer
