import LawyerAgent.Datetimes

/-!
# The envelope on the wire

What a consumer may be handed: any UUID, any datetime, any text that the
envelope's validators let through. The signing input is the sequence of the
seven signed fields, each with its name and its length, so it determines them.
-/

set_option autoImplicit false

namespace LawyerAgent.WireEnvelope
open Common Envelope Datetimes

abbrev UUID : Type := BitVec 128

/-- `str(UUID)` -/
def uuidString (u : UUID) : List Char :=
  let hex := digits 16 32 u.toNat
  hex.take 8 ++ '-'::(hex.drop 8).take 4 ++ '-'::(hex.drop 12).take 4 ++
    '-'::(hex.drop 16).take 4 ++ '-'::hex.drop 20

structure AIJobEnvelopeFields where
  schemaVersion : ℕ
  messageId : UUID
  jobId : UUID
  tenantId : UUID
  correlationId : UUID
  issuedAt : Datetime
  nonce : String
  signature : String
deriving DecidableEq

def aiJobEnvelopeChecks : Checks AIJobEnvelopeFields := fun e =>
  [(e.schemaVersion = 1,"input should be 1"),
   (nonceOk e.nonce,"nonce must be an unpadded Base64URL 128-bit value"),
   ((signatureKid e.signature).isSome,
    "signature must use the ed25519.<kid>.<base64url> form")]

abbrev AIJobEnvelope : Type := Checked aiJobEnvelopeChecks

def canonicalParts (e : AIJobEnvelopeFields) : List (List Char × List Char) :=
  [("schema_version".toList,"1".toList),
   ("message_id".toList,uuidString e.messageId),
   ("job_id".toList,uuidString e.jobId),
   ("tenant_id".toList,uuidString e.tenantId),
   ("correlation_id".toList,uuidString e.correlationId),
   ("issued_at".toList,canonicalDatetime e.issuedAt.instant),
   ("nonce".toList,e.nonce.toList)]

def canonicalBytes (e : AIJobEnvelopeFields) : List UInt8 :=
  (canonicalParts e).flatMap fun part => lengthPrefixed part.1 ++ lengthPrefixed part.2

structure SignedAlike (e f : AIJobEnvelopeFields) : Prop where
  schemaVersion : e.schemaVersion = f.schemaVersion
  messageId : e.messageId = f.messageId
  jobId : e.jobId = f.jobId
  tenantId : e.tenantId = f.tenantId
  correlationId : e.correlationId = f.correlationId
  issuedAt : e.issuedAt = f.issuedAt
  nonce : e.nonce = f.nonce

/-- A text the signing input can hold: ASCII, with a length of four bytes. -/
structure Encodable (text : List Char) : Prop where
  ascii : ∀ c ∈ text, c.toNat < 128
  length : text.length < 4294967296

theorem bigEndian4_inj {n m : ℕ} (hn : n < 4294967296) (hm : m < 4294967296)
    (h : bigEndian4 n = bigEndian4 m) : n = m := by
  simp only [bigEndian4,List.cons.injEq,and_true,Nat.shiftRight_eq_div_pow] at h
  obtain ⟨h₁,h₂,h₃,h₄⟩ := h
  have h₁ := congrArg UInt8.toNat h₁
  have h₂ := congrArg UInt8.toNat h₂
  have h₃ := congrArg UInt8.toNat h₃
  have h₄ := congrArg UInt8.toNat h₄
  simp only [Nat.toUInt8_eq,UInt8.toNat_ofNat'] at h₁ h₂ h₃ h₄
  omega

theorem asciiBytes_inj {s t : List Char} (hs : ∀ c ∈ s, c.toNat < 128)
    (ht : ∀ c ∈ t, c.toNat < 128)
    (h : (s.map fun c => c.toNat.toUInt8) = t.map fun c => c.toNat.toUInt8) : s = t := by
  induction s generalizing t with
  | nil =>
    cases t with
    | nil => rfl
    | cons d t => cases h
  | cons c s ih =>
    cases t with
    | nil => cases h
    | cons d t =>
      simp only [List.map_cons,List.cons.injEq] at h
      have hc := hs c List.mem_cons_self
      have hd := ht d List.mem_cons_self
      have hbyte := congrArg UInt8.toNat h.1
      simp only [Nat.toUInt8_eq,UInt8.toNat_ofNat'] at hbyte
      have hnat : c.toNat = d.toNat := by omega
      rw [Char.toNat_inj.mp hnat,ih (fun e he => hs e (List.mem_cons_of_mem _ he))
        (fun e he => ht e (List.mem_cons_of_mem _ he)) h.2]

theorem lengthPrefixed_inj {s t : List Char} {rest rest' : List UInt8} (hs : Encodable s)
    (ht : Encodable t) (h : lengthPrefixed s++rest = lengthPrefixed t++rest') :
    s = t ∧ rest = rest' := by
  simp only [lengthPrefixed,List.append_assoc] at h
  obtain ⟨hlength,h⟩ := List.append_inj h rfl
  have hlen := bigEndian4_inj hs.length ht.length hlength
  obtain ⟨htext,hrest⟩ := List.append_inj h (by simpa using hlen)
  exact ⟨asciiBytes_inj hs.ascii ht.ascii htext,hrest⟩

theorem parts_inj {parts parts' : List (List Char × List Char)}
    (hp : ∀ p ∈ parts, Encodable p.1 ∧ Encodable p.2)
    (hp' : ∀ p ∈ parts', Encodable p.1 ∧ Encodable p.2)
    (hlen : parts.length = parts'.length)
    (h : (parts.flatMap fun p => lengthPrefixed p.1 ++ lengthPrefixed p.2) =
      parts'.flatMap fun p => lengthPrefixed p.1 ++ lengthPrefixed p.2) : parts = parts' := by
  induction parts generalizing parts' with
  | nil =>
    cases parts' with
    | nil => rfl
    | cons q parts' => cases hlen
  | cons p parts ih =>
    cases parts' with
    | nil => cases hlen
    | cons q parts' =>
      obtain ⟨hname,hvalue⟩ := hp p List.mem_cons_self
      obtain ⟨hname',hvalue'⟩ := hp' q List.mem_cons_self
      simp only [List.flatMap_cons,List.append_assoc] at h
      obtain ⟨hfirst,h⟩ := lengthPrefixed_inj hname hname' h
      obtain ⟨hsecond,h⟩ := lengthPrefixed_inj hvalue hvalue' h
      have hrest := ih (fun r hr => hp r (List.mem_cons_of_mem _ hr))
        (fun r hr => hp' r (List.mem_cons_of_mem _ hr)) (Nat.succ.inj hlen) h
      rw [hrest,Prod.ext hfirst hsecond]

theorem groups_join (hex : List Char) :
    hex.take 8++((hex.drop 8).take 4++((hex.drop 12).take 4++((hex.drop 16).take 4++
      hex.drop 20))) = hex := by
  have hnext : ∀ n k, (hex.drop n).take k++hex.drop (n+k) = hex.drop n := fun n k => by
    rw [← List.drop_drop,List.take_append_drop]
  rw [hnext 16 4,hnext 12 4,hnext 8 4,List.take_append_drop]

theorem uuidString_inj {u v : UUID} (h : uuidString u = uuidString v) : u = v := by
  have hlen : ∀ w : UUID, (digits 16 32 w.toNat).length = 32 := fun w => digits_length _ _ _
  have hu := hlen u
  have hv := hlen v
  simp only [uuidString,List.append_assoc] at h
  obtain ⟨h₁,h⟩ := List.append_inj h (by simp [hu,hv])
  obtain ⟨h₂,h⟩ := List.append_inj (List.cons.inj h).2 (by simp [hu,hv])
  obtain ⟨h₃,h⟩ := List.append_inj (List.cons.inj h).2 (by simp [hu,hv])
  obtain ⟨h₄,h⟩ := List.append_inj (List.cons.inj h).2 (by simp [hu,hv])
  have h₅ := (List.cons.inj h).2
  have hdigits : digits 16 32 u.toNat = digits 16 32 v.toNat := by
    rw [← groups_join (digits 16 32 u.toNat),h₁,h₂,h₃,h₄,h₅,groups_join]
  have hbound : ∀ w : UUID, w.toNat < 16^32 := fun w => by
    have := w.isLt
    omega
  exact BitVec.eq_of_toNat_eq
    (digits_inj (by decide) (by decide) (hbound u) (hbound v) hdigits)

theorem uuidString_encodable (u : UUID) : Encodable (uuidString u) := by
  have hdigits := digits_ascii (show 16 ≤ 16 by decide) (by decide) 32 u.toNat
  constructor
  · intro c hc
    simp only [uuidString,List.mem_append,List.mem_cons] at hc
    rcases hc with (((hc | rfl | hc) | rfl | hc) | rfl | hc) | rfl | hc
    · exact hdigits c (List.mem_of_mem_take hc)
    · decide
    · exact hdigits c (List.mem_of_mem_drop (List.mem_of_mem_take hc))
    · decide
    · exact hdigits c (List.mem_of_mem_drop (List.mem_of_mem_take hc))
    · decide
    · exact hdigits c (List.mem_of_mem_drop (List.mem_of_mem_take hc))
    · decide
    · exact hdigits c (List.mem_of_mem_drop hc)
  · simp [uuidString,digits_length]

theorem base64UrlChar_ascii {c : Char} (h : base64UrlChar c = true) : c.toNat < 128 := by
  delta base64UrlChar Char.isAlphanum Char.isAlpha Char.isUpper Char.isLower Char.isDigit at h
  simp only [Bool.or_eq_true,Bool.and_eq_true,decide_eq_true_eq,beq_iff_eq] at h
  have hval : c.toNat = c.val.toNat := rfl
  rcases h with (((h | h) | h) | rfl) | rfl
  · have := UInt32.le_iff_toNat_le.mp h.2
    simp at this
    omega
  · have := UInt32.le_iff_toNat_le.mp h.2
    simp at this
    omega
  · have := UInt32.le_iff_toNat_le.mp h.2
    simp at this
    omega
  · decide
  · decide

theorem nonce_encodable {nonce : String} (h : nonceOk nonce = true) :
    Encodable nonce.toList := by
  simp only [nonceOk,Bool.and_eq_true,beq_iff_eq,List.all_eq_true] at h
  exact ⟨fun c hc => base64UrlChar_ascii (h.2 c hc),by omega⟩

theorem canonicalDatetime_encodable (t : Time) : Encodable (canonicalDatetime t) := by
  refine ⟨canonicalDatetime_ascii t,?_⟩
  rcases canonicalDatetime_length t with h | h <;> omega

theorem parts_encodable {e : AIJobEnvelopeFields} (h : nonceOk e.nonce = true) :
    ∀ p ∈ canonicalParts e, Encodable p.1 ∧ Encodable p.2 := by
  have hname : ∀ name ∈ ["schema_version","message_id","job_id","tenant_id","correlation_id",
      "issued_at","nonce","1"], Encodable name.toList := by
    have hall : ∀ name ∈ ["schema_version","message_id","job_id","tenant_id",
        "correlation_id","issued_at","nonce","1"],
        (name.toList.all fun c => decide (c.toNat < 128)) = true ∧
          name.toList.length < 4294967296 := by decide
    exact fun name hmem => ⟨each_of_all (hall name hmem).1,(hall name hmem).2⟩
  simp only [canonicalParts,List.forall_mem_cons]
  refine ⟨⟨hname _ (by simp),hname _ (by simp)⟩,⟨hname _ (by simp),uuidString_encodable _⟩,
    ⟨hname _ (by simp),uuidString_encodable _⟩,⟨hname _ (by simp),uuidString_encodable _⟩,
    ⟨hname _ (by simp),uuidString_encodable _⟩,
    ⟨hname _ (by simp),canonicalDatetime_encodable _⟩,
    ⟨hname _ (by simp),nonce_encodable h⟩,by simp⟩

theorem canonicalBytes_inj {e f : AIJobEnvelopeFields} (he : nonceOk e.nonce = true)
    (hf : nonceOk f.nonce = true) (hversion : e.schemaVersion = f.schemaVersion)
    (h : canonicalBytes e = canonicalBytes f) : SignedAlike e f := by
  unfold canonicalBytes at h
  have hlength : (canonicalParts e).length = (canonicalParts f).length := by
    simp only [canonicalParts,List.length_cons,List.length_nil]
  have hparts := parts_inj (parts_encodable he) (parts_encodable hf) hlength h
  simp only [canonicalParts,List.cons.injEq,Prod.mk.injEq,true_and,and_true] at hparts
  obtain ⟨hmessage,hjob,htenant,hcorrelation,hissued,hnonce⟩ := hparts
  exact ⟨hversion,uuidString_inj hmessage,uuidString_inj hjob,uuidString_inj htenant,
    uuidString_inj hcorrelation,canonicalDatetime_inj hissued,String.toList_inj.mp hnonce⟩

theorem envelope_nonce (e : AIJobEnvelope) : nonceOk e.value.nonce = true :=
  firstError_none e.valid (c := (nonceOk e.value.nonce,
    "nonce must be an unpadded Base64URL 128-bit value")) (by simp [aiJobEnvelopeChecks])

theorem envelope_version (e : AIJobEnvelope) : e.value.schemaVersion = 1 := by
  have h := firstError_none e.valid (c := (decide (e.value.schemaVersion = 1),
    "input should be 1")) (by simp [aiJobEnvelopeChecks])
  simpa using h

end LawyerAgent.WireEnvelope
