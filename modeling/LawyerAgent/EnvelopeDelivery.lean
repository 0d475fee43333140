import LawyerAgent.EnvelopeSigning
import LawyerAgent.JsonReader

/-!
# Deliveries

The wire body of an envelope is a JSON object of eight fields, written by
`orjson.dumps`. The worker reads it back with `orjson.loads`, lets the envelope
class validate the fields and compares the object with what the envelope would
be sent as. The JSON reader and the field types of pydantic are parameters.
-/

set_option autoImplicit false

namespace LawyerAgent.EnvelopeDelivery
open Common CanonicalJson JsonReader
open Datetimes WireEnvelope
open Envelope (canonicalDatetime civilDate digit digits)
open JsonText (decimal)

def maxDeliveryBodyBytes : ℕ := 16*1024

inductive DeliveryError where
  | rejected (rejectionCode : String)
  | valueError (message : String)
deriving DecidableEq

structure RawDelivery where
  body : List UInt8
  contentType : String

/-- A parsed datetime: its wall clock, and its offset unless it is naive. -/
structure PyDatetime where
  wall : Datetime
  utcoffset : Option ℤ

structure Packages where
  orjsonLoads : List UInt8 → Option Json
  literalOne : Json → Bool
  uuid : Json → Option UUID
  datetime : Json → Option PyDatetime

def fieldNames : List String :=
  ["schema_version","message_id","job_id","tenant_id","correlation_id","issued_at","nonce",
    "signature"]

def wireFields (e : AIJobEnvelopeFields) : JsonObject :=
  [("schema_version",.number e.schemaVersion),
   ("message_id",.string (String.ofList (uuidString e.messageId))),
   ("job_id",.string (String.ofList (uuidString e.jobId))),
   ("tenant_id",.string (String.ofList (uuidString e.tenantId))),
   ("correlation_id",.string (String.ofList (uuidString e.correlationId))),
   ("issued_at",.string (String.ofList (canonicalDatetime e.issuedAt.instant))),
   ("nonce",.string e.nonce),
   ("signature",.string e.signature)]

def envelopeToJson (e : AIJobEnvelopeFields) (utcoffset : Option ℤ) :
    Except DeliveryError JsonObject :=
  if utcoffset = some 0 then .ok (wireFields e)
  else .error (.valueError "envelope issued_at must be UTC-aware")

def wireBody (e : AIJobEnvelopeFields) : List UInt8 := encode (write (.object (wireFields e)))

def requireSizeAndContentType (delivery : RawDelivery) : Except DeliveryError RawDelivery :=
  if delivery.contentType ≠ "application/json" then
    .error (.rejected "unsupported_content_type")
  else if delivery.body = [] ∨ maxDeliveryBodyBytes < delivery.body.length then
    .error (.rejected "invalid_delivery_size")
  else .ok delivery

/-- A `str` field takes strings only. -/
def text : Json → Option String
  | .string s => some s
  | _ => none

def modelValidate (P : Packages) (payload : JsonObject) : Option (AIJobEnvelope × Option ℤ) :=
  if payload.all fun f => decide (f.1 ∈ fieldNames) then do
    let version ← payload.lookup "schema_version"
    let messageId ← (payload.lookup "message_id").bind P.uuid
    let jobId ← (payload.lookup "job_id").bind P.uuid
    let tenantId ← (payload.lookup "tenant_id").bind P.uuid
    let correlationId ← (payload.lookup "correlation_id").bind P.uuid
    let issuedAt ← (payload.lookup "issued_at").bind P.datetime
    let nonce ← (payload.lookup "nonce").bind text
    let signature ← (payload.lookup "signature").bind text
    if P.literalOne version then
      match postInit aiJobEnvelopeChecks
        { schemaVersion := 1
          messageId := messageId
          jobId := jobId
          tenantId := tenantId
          correlationId := correlationId
          issuedAt := issuedAt.wall
          nonce := nonce
          signature := signature } with
      | .ok envelope => some (envelope,issuedAt.utcoffset)
      | .error _ => none
    else none
  else none

/-- `==` of Python on a wire field: `True` and `1.0` are equal to 1. -/
def pyEqual : Json → Json → Bool
  | .string s, .string t => s = t
  | .number n, .number m => n = m
  | .number n, .bool b => n = if b then 1 else 0
  | .number n, .float t => t.toList = intText n++['.','0']
  | _, _ => false

def sameDict (expected payload : JsonObject) : Bool :=
  expected.length = payload.length && expected.all fun f =>
    match payload.lookup f.1 with
    | some value => pyEqual f.2 value
    | none => false

def parseAndRequireCanonical (P : Packages) (delivery : RawDelivery) :
    Except DeliveryError AIJobEnvelope :=
  match P.orjsonLoads delivery.body with
  | none => .error (.rejected "invalid_envelope_json")
  | some (.object payload) =>
    match modelValidate P payload with
    | none => .error (.rejected "invalid_envelope_fields")
    | some (envelope,utcoffset) =>
      match envelopeToJson envelope.value utcoffset with
      | .error e => .error e
      | .ok expected =>
        if sameDict expected payload then .ok envelope
        else .error (.rejected "non_canonical_envelope")
  | some _ => .error (.rejected "invalid_envelope_shape")

def readDelivery (P : Packages) (delivery : RawDelivery) :
    Except DeliveryError AIJobEnvelope :=
  match requireSizeAndContentType delivery with
  | .error e => .error e
  | .ok bounded => parseAndRequireCanonical P bounded

/-- Strings and 64-bit numbers under distinct keys. -/
structure Flat (fields : JsonObject) : Prop where
  keys : (fields.map Prod.fst).Nodup
  values : ∀ f ∈ fields, (∃ s, f.2 = .string s) ∨ ∃ n : ℕ, n < 2^63 ∧ f.2 = .number n

/-- The JSON reader reads what the writer wrote and builds dictionaries; the
field types read the number 1 and the canonical texts. -/
structure Packages.Lawful (P : Packages) : Prop where
  loads_dumps : ∀ fields, Flat fields →
    P.orjsonLoads (encode (write (.object fields))) = some (.object fields)
  loads_keys : ∀ body fields, P.orjsonLoads body = some (.object fields) →
    (fields.map Prod.fst).Nodup
  literal_one : P.literalOne (.number 1) = true
  uuid_text : ∀ u, P.uuid (.string (String.ofList (uuidString u))) = some u
  datetime_text : ∀ t : Datetime,
    P.datetime (.string (String.ofList (canonicalDatetime t.instant))) = some ⟨t,some 0⟩

theorem wireFields_keys (e : AIJobEnvelopeFields) :
    (wireFields e).map Prod.fst = fieldNames := rfl

theorem fieldNames_nodup : fieldNames.Nodup := by decide

theorem wireFields_flat (e : AIJobEnvelope) : Flat (wireFields e.value) := by
  constructor
  · rw [wireFields_keys]
    exact fieldNames_nodup
  · rw [wireFields,envelope_version]
    simp only [List.forall_mem_cons]
    refine ⟨Or.inr ⟨1,by decide,rfl⟩,Or.inl ⟨_,rfl⟩,Or.inl ⟨_,rfl⟩,Or.inl ⟨_,rfl⟩,
      Or.inl ⟨_,rfl⟩,Or.inl ⟨_,rfl⟩,Or.inl ⟨_,rfl⟩,Or.inl ⟨_,rfl⟩,by simp⟩

theorem pyEqual_string {s : String} {value : Json} (h : pyEqual (.string s) value = true) :
    value = .string s := by
  cases value with
  | string t =>
    simp only [pyEqual,decide_eq_true_eq] at h
    rw [h]
  | _ => cases h

section Roundtrip

variable {P : Packages}

theorem modelValidate_wire (hP : P.Lawful) (e : AIJobEnvelope) :
    modelValidate P (wireFields e.value) = some (e,some 0) := by
  have hnames : (wireFields e.value).all (fun f => decide (f.1 ∈ fieldNames)) = true := by
    rw [List.all_eq_true]
    intro f hf
    have hmem := List.mem_map_of_mem (f := Prod.fst) hf
    rw [wireFields_keys] at hmem
    simpa using hmem
  have hversion := envelope_version e
  have hvalue : postInit aiJobEnvelopeChecks
      { schemaVersion := 1
        messageId := e.value.messageId
        jobId := e.value.jobId
        tenantId := e.value.tenantId
        correlationId := e.value.correlationId
        issuedAt := e.value.issuedAt
        nonce := e.value.nonce
        signature := e.value.signature } = .ok e := by
    rw [← hversion]
    exact postInit_value e
  rw [modelValidate,if_pos hnames]
  simp [wireFields,List.lookup_cons,hP.uuid_text,hP.datetime_text,hP.literal_one,text,hversion,hvalue]

theorem sameDict_self (e : AIJobEnvelopeFields) :
    sameDict (wireFields e) (wireFields e) = true := by
  simp [sameDict,wireFields,List.lookup_cons,pyEqual]

theorem parse_wire (hP : P.Lawful) (e : AIJobEnvelope) (contentType : String) :
    parseAndRequireCanonical P ⟨wireBody e.value,contentType⟩ = .ok e := by
  have hloads := hP.loads_dumps _ (wireFields_flat e)
  simp only [parseAndRequireCanonical,wireBody,hloads,modelValidate_wire hP,envelopeToJson,
    if_true,sameDict_self]

theorem wireBody_nonempty (e : AIJobEnvelopeFields) : wireBody e ≠ [] := by
  intro hnil
  have hempty : encode (write (.object (wireFields e))) = encode [] := hnil
  have hwrite := encode_inj hempty
  simp [write] at hwrite

end Roundtrip

/-- A dictionary that is equal to one with distinct keys has its items, each
with an equal value. -/
theorem sameDict_perm {expected payload : JsonObject}
    (hkeys : (expected.map Prod.fst).Nodup) (h : sameDict expected payload = true) :
    payload.Perm (expected.map fun f => (f.1,(payload.lookup f.1).getD .null)) ∧
    ∀ f ∈ expected, pyEqual f.2 ((payload.lookup f.1).getD .null) = true := by
  simp only [sameDict,Bool.and_eq_true,decide_eq_true_eq,List.all_eq_true] at h
  obtain ⟨hlength,hall⟩ := h
  have hfound : ∀ f ∈ expected, ∃ value, payload.lookup f.1 = some value ∧
      pyEqual f.2 value = true := by
    intro f hf
    have hf := hall f hf
    cases hlookup : payload.lookup f.1 with
    | none =>
      rw [hlookup] at hf
      cases hf
    | some value =>
      rw [hlookup] at hf
      exact ⟨value,rfl,hf⟩
  constructor
  · have hnodup : (expected.map fun f => (f.1,(payload.lookup f.1).getD .null)).Nodup := by
      apply List.Nodup.of_map Prod.fst
      rw [List.map_map]
      exact hkeys
    have hsubset : (expected.map fun f => (f.1,(payload.lookup f.1).getD .null)) ⊆ payload := by
      intro item hitem
      obtain ⟨f,hf,rfl⟩ := List.mem_map.mp hitem
      obtain ⟨value,hvalue,-⟩ := hfound f hf
      obtain ⟨before,after,hsplit,-⟩ := List.lookup_eq_some_iff.mp hvalue
      rw [hvalue,hsplit]
      simp
    have hsub := List.subperm_of_subset hnodup hsubset
    exact (hsub.perm_of_length_le (by simp [hlength])).symm
  · intro f hf
    obtain ⟨value,hvalue,hequal⟩ := hfound f hf
    rw [hvalue]
    exact hequal

/-- The payload has the fields of the envelope's wire form, with some value
that is equal to 1 as its version. -/
theorem sameDict_wire {e : AIJobEnvelopeFields} {payload : JsonObject}
    (h : sameDict (wireFields e) payload = true) : ∃ version,
    pyEqual (.number e.schemaVersion) version = true ∧
    payload.Perm (("schema_version",version)::(wireFields e).tail) := by
  have hkeys : ((wireFields e).map Prod.fst).Nodup := fieldNames_nodup
  obtain ⟨hperm,hequal⟩ := sameDict_perm hkeys h
  refine ⟨_,hequal ("schema_version",.number e.schemaVersion) List.mem_cons_self,?_⟩
  have htail : ∀ f ∈ (wireFields e).tail, (f.1,(payload.lookup f.1).getD .null) = f := by
    intro f hf
    have hvalue := hequal f (List.mem_of_mem_tail hf)
    have hstring : ∃ s, f.2 = .string s := by
      simp only [wireFields,List.tail_cons] at hf
      revert f
      simp only [List.forall_mem_cons]
      simp
    obtain ⟨s,hs⟩ := hstring
    rw [hs] at hvalue
    exact Prod.ext rfl ((pyEqual_string hvalue).trans hs.symm)
  have hmap := List.map_congr_left (g := id) htail
  rw [List.map_id] at hmap
  rw [← hmap]
  exact hperm

theorem parse_ok {P : Packages} {delivery : RawDelivery} {e : AIJobEnvelope}
    (h : parseAndRequireCanonical P delivery = .ok e) :
    ∃ payload, P.orjsonLoads delivery.body = some (.object payload) ∧
      sameDict (wireFields e.value) payload = true := by
  unfold parseAndRequireCanonical at h
  split at h
  · cases h
  · rename_i payload hpayload
    split at h
    · cases h
    · rename_i envelope utcoffset hmodel
      unfold envelopeToJson at h
      split at h
      · cases h
      · rename_i expected hexpected
        split at hexpected
        · cases hexpected
          split at h
          · rename_i hsame
            cases h
            exact ⟨payload,hpayload,hsame⟩
          · cases h
        · cases hexpected
  · cases h

/-- A sent envelope is read back, an accepted payload is the wire form of the
envelope returned, and the signing input determines what it signs. -/
theorem delivery_canonical (P : Packages) (hP : P.Lawful) :
    (∀ e : AIJobEnvelope, (wireBody e.value).length ≤ maxDeliveryBodyBytes →
      readDelivery P ⟨wireBody e.value,"application/json"⟩ = .ok e) ∧
    (∀ (delivery : RawDelivery) (e : AIJobEnvelope),
      parseAndRequireCanonical P delivery = .ok e → ∃ payload version,
        P.orjsonLoads delivery.body = some (.object payload) ∧
        pyEqual (.number 1) version = true ∧
        payload.Perm (("schema_version",version)::(wireFields e.value).tail)) ∧
    (∀ e f : AIJobEnvelope, canonicalBytes e.value = canonicalBytes f.value →
      SignedAlike e.value f.value) := by
  refine ⟨?_,?_,?_⟩
  · intro e hsize
    have hbounded : ¬(wireBody e.value = [] ∨
        maxDeliveryBodyBytes < (wireBody e.value).length) := by
      simp only [wireBody_nonempty,false_or,not_lt]
      exact hsize
    have hdelivery : requireSizeAndContentType ⟨wireBody e.value,"application/json"⟩ =
        .ok ⟨wireBody e.value,"application/json"⟩ := by
      rw [requireSizeAndContentType,if_neg (by simp),if_neg hbounded]
    rw [readDelivery,hdelivery]
    exact parse_wire hP e _
  · intro delivery e hparse
    obtain ⟨payload,hloads,hsame⟩ := parse_ok hparse
    obtain ⟨version,hversion,hperm⟩ := sameDict_wire hsame
    rw [envelope_version] at hversion
    exact ⟨payload,version,hloads,hversion,hperm⟩
  · intro e f hbytes
    exact canonicalBytes_inj (envelope_nonce e) (envelope_nonce f)
      ((envelope_version e).trans (envelope_version f).symm) hbytes

theorem foldl_digits {base : ℕ} {value : Char → ℕ} (hpos : 0 < base)
    (hvalue : ∀ n < base, value (digit n) = n) {width n : ℕ} (hn : n < base^width) :
    (digits base width n).foldl (fun k c => k*base+value c) 0 = n := by
  induction width generalizing n with
  | zero =>
    rw [pow_zero] at hn
    rw [digits,List.foldl_nil]
    omega
  | succ width ih =>
    have hquot : n/base < base^width :=
      Nat.div_lt_of_lt_mul (by rw [mul_comm,← pow_succ]; exact hn)
    rw [digits,List.foldl_append,ih hquot,List.foldl_cons,List.foldl_nil,
      hvalue _ (Nat.mod_lt n hpos),mul_comm]
    exact Nat.div_add_mod n base

theorem decimal_digits {width n : ℕ} (hn : n < 10^width) : decimal (digits 10 width n) = n :=
  foldl_digits (by decide) (by decide) hn

theorem hexValue_digits {width n : ℕ} (hn : n < 16^width) :
    hexValue (digits 16 width n) = n :=
  foldl_digits (by decide) (by decide) hn

def readUUID : Json → Option UUID
  | .string s => some (BitVec.ofNat 128 (hexValue (s.toList.filter fun c => c ≠ '-')))
  | _ => none

theorem digit_ne_dash : ∀ n < 16, digit n ≠ '-' := by decide

theorem uuidString_digits (u : UUID) :
    (uuidString u).filter (fun c => c ≠ '-') = digits 16 32 u.toNat := by
  have hplain : ∀ part : List Char, (∀ c ∈ part, c ∈ digits 16 32 u.toNat) →
      part.filter (fun c => c ≠ '-') = part := by
    intro part hpart
    apply List.filter_eq_self.mpr
    intro c hc
    obtain ⟨k,hk,rfl⟩ := digits_mem (by decide) (hpart c hc)
    simpa using digit_ne_dash k hk
  simp only [uuidString,List.filter_append,List.append_assoc]
  rw [List.filter_cons_of_neg (by decide),List.filter_cons_of_neg (by decide),
    List.filter_cons_of_neg (by decide),List.filter_cons_of_neg (by decide),
    hplain _ fun c hc => List.mem_of_mem_take hc,
    hplain _ fun c hc => List.mem_of_mem_drop (List.mem_of_mem_take hc),
    hplain _ fun c hc => List.mem_of_mem_drop (List.mem_of_mem_take hc),
    hplain _ fun c hc => List.mem_of_mem_drop (List.mem_of_mem_take hc),
    hplain _ fun c hc => List.mem_of_mem_drop hc]
  exact groups_join _

theorem readUUID_text (u : UUID) : readUUID (.string (String.ofList (uuidString u))) = some u := by
  have hbound : u.toNat < 16^32 := by
    have := u.isLt
    omega
  rw [readUUID,String.toList_ofList,uuidString_digits,hexValue_digits hbound,
    BitVec.ofNat_toNat,BitVec.setWidth_eq]

def readInstant (form : List Char) : ℤ :=
  let number (start width : ℕ) : ℤ := decimal ((form.drop start).take width)
  let micro := if form.length = 27 then number 20 6 else 0
  (civilDay (number 0 4) (number 5 2) (number 8 2)*86400+number 11 2*3600+number 14 2*60+
    number 17 2)*1000000+micro

def readDatetime : Json → Option PyDatetime
  | .string s =>
    let instant := readInstant s.toList
    if h : minDatetime ≤ instant ∧ instant < maxDatetime then
      some ⟨⟨instant,h.1,h.2⟩,some 0⟩
    else none
  | _ => none

/-- A text of six fields of fixed width, with something behind them. -/
def stamp (y m d h i s : ℕ) (tail : List Char) : List Char :=
  digits 10 4 y++ '-'::digits 10 2 m++ '-'::digits 10 2 d++ 'T'::digits 10 2 h++
    ':'::digits 10 2 i++ ':'::digits 10 2 s++tail

theorem stamp_slices (y m d h i s : ℕ) (tail : List Char) :
    ((stamp y m d h i s tail).drop 0).take 4 = digits 10 4 y ∧
    ((stamp y m d h i s tail).drop 5).take 2 = digits 10 2 m ∧
    ((stamp y m d h i s tail).drop 8).take 2 = digits 10 2 d ∧
    ((stamp y m d h i s tail).drop 11).take 2 = digits 10 2 h ∧
    ((stamp y m d h i s tail).drop 14).take 2 = digits 10 2 i ∧
    ((stamp y m d h i s tail).drop 17).take 2 = digits 10 2 s ∧
    (stamp y m d h i s tail).drop 19 = tail ∧
    (stamp y m d h i s tail).length = tail.length+19 :=
  ⟨rfl,rfl,rfl,rfl,rfl,rfl,rfl,rfl⟩

theorem decimal_field {width : ℕ} {x : ℤ} (hx : 0 ≤ x) (hx' : x < 10^width) :
    ((decimal (digits 10 width x.toNat) : ℕ) : ℤ) = x := by
  have hcast : x.toNat < 10^width := by
    rw [Int.toNat_lt hx]
    exact_mod_cast hx'
  rw [decimal_digits hcast]
  omega

theorem readInstant_text {a : ℤ} (ha : minDatetime ≤ a) (ha' : a < maxDatetime) :
    readInstant (canonicalDatetime a) = a := by
  have hdays := day_range ha ha'
  have hyear := civilDate_year hdays.1 hdays.2
  have hmonth := civilDate_month (a/1000000/86400)
  have hday := civilDay_civilDate (a/1000000/86400)
  have htext : canonicalDatetime a = stamp (civilDate (a/1000000/86400)).1.toNat
      (civilDate (a/1000000/86400)).2.1.toNat (civilDate (a/1000000/86400)).2.2.toNat
      (a/1000000%86400/3600).toNat (a/1000000%86400/60%60).toNat (a/1000000%86400%60).toNat
      ((if a%1000000 = 0 then [] else '.'::digits 10 6 (a%1000000).toNat)++['Z']) := by
    simp only [canonicalDatetime,stamp,List.append_assoc]
  obtain ⟨h₁,h₂,h₃,h₄,h₅,h₆,htail,hlength⟩ := stamp_slices
    (civilDate (a/1000000/86400)).1.toNat (civilDate (a/1000000/86400)).2.1.toNat
    (civilDate (a/1000000/86400)).2.2.toNat (a/1000000%86400/3600).toNat
    (a/1000000%86400/60%60).toNat (a/1000000%86400%60).toNat
    ((if a%1000000 = 0 then [] else '.'::digits 10 6 (a%1000000).toNat)++['Z'])
  rw [← htext] at h₁ h₂ h₃ h₄ h₅ h₆ htail hlength
  have hmicro : (if (canonicalDatetime a).length = 27 then
      ((decimal (((canonicalDatetime a).drop 20).take 6) : ℕ) : ℤ) else 0) = a%1000000 := by
    by_cases hzero : a%1000000 = 0
    · rw [if_pos hzero] at hlength
      have hshort : ¬(canonicalDatetime a).length = 27 := by
        rw [hlength]
        decide
      rw [if_neg hshort,hzero]
    · rw [if_neg hzero] at hlength htail
      have hlong : (canonicalDatetime a).length = 27 := by
        rw [hlength]
        rfl
      have hfraction : ((canonicalDatetime a).drop 20).take 6 =
          digits 10 6 (a%1000000).toNat := by
        rw [← List.drop_drop (i := 1) (j := 19),htail]
        rfl
      rw [if_pos hlong,hfraction,decimal_field (by omega) (by omega)]
  simp only [readInstant,hmicro,h₁,h₂,h₃,h₄,h₅,h₆]
  rw [decimal_field (by omega) (by omega),decimal_field (by omega) (by omega),
    decimal_field (by omega) (by omega),decimal_field (by omega) (by omega),
    decimal_field (by omega) (by omega),decimal_field (by omega) (by omega),hday]
  omega

theorem readDatetime_text (t : Datetime) :
    readDatetime (.string (String.ofList (canonicalDatetime t.instant))) = some ⟨t,some 0⟩ := by
  have hinstant := readInstant_text t.first t.last
  simp only [readDatetime,String.toList_ofList,hinstant]
  rw [dif_pos ⟨t.first,t.last⟩]

/-- A JSON object with repeated keys is not built here. -/
def readJson (body : List UInt8) : Option Json :=
  match (decode body).bind loads with
  | some (.object fields) =>
    if (fields.map Prod.fst).Nodup then some (.object fields) else none
  | other => other

def literalOne : Json → Bool
  | .number n => n = 1
  | _ => false

def plainPackages : Packages where
  orjsonLoads := readJson
  literalOne := literalOne
  uuid := readUUID
  datetime := readDatetime

theorem flat_finite {fields : JsonObject} (h : ∀ f ∈ fields, (∃ s, f.2 = .string s) ∨
    ∃ n : ℕ, n < 2^63 ∧ f.2 = .number n) : finiteFields fields = true := by
  induction fields with
  | nil => rfl
  | cons f fields ih =>
    obtain ⟨key,value⟩ := f
    have hrest := ih fun g hg => h g (List.mem_cons_of_mem _ hg)
    rw [finiteFields,Bool.and_eq_true]
    refine ⟨?_,hrest⟩
    rcases h (key,value) List.mem_cons_self with ⟨s,rfl⟩ | ⟨n,-,rfl⟩ <;> rfl

theorem readJson_dumps {fields : JsonObject} (h : Flat fields) :
    readJson (encode (write (.object fields))) = some (.object fields) := by
  have hread := loads_write (.object fields) (flat_finite h.values)
  rw [readJson,decode_encode,Option.bind_some,hread]
  exact if_pos h.keys

theorem readJson_keys {body : List UInt8} {fields : JsonObject}
    (h : readJson body = some (.object fields)) : (fields.map Prod.fst).Nodup := by
  rw [readJson] at h
  generalize (decode body).bind loads = read at h
  split at h
  · split at h
    · rename_i hnodup
      cases h
      exact hnodup
    · cases h
  · rename_i hobject
    exact absurd h (hobject fields)

theorem plainPackages_datetime : plainPackages.datetime = readDatetime := rfl

theorem plainPackages_lawful : plainPackages.Lawful where
  loads_dumps _ := readJson_dumps
  loads_keys _ _ := readJson_keys
  literal_one := rfl
  uuid_text := readUUID_text
  datetime_text t := by
    rw [plainPackages_datetime]
    exact readDatetime_text t

theorem sample_delivered :
    readDelivery plainPackages
      ⟨wireBody EnvelopeSigning.sampleEnvelope.value,"application/json"⟩ =
        .ok EnvelopeSigning.sampleEnvelope :=
  (delivery_canonical plainPackages plainPackages_lawful).1 EnvelopeSigning.sampleEnvelope
    (by decide +kernel)

end LawyerAgent.EnvelopeDelivery
