import LawyerAgent.EnvelopeDelivery
import LawyerAgent.MembershipRepository
import LawyerAgent.Outcomes.Except
import LawyerAgent.PythonRepr

/-!
# Cursors of a member collection

A cursor is the position of the last member of a page. `MemberCursorCodec` writes
it with the tenant and the fingerprint of the collection's scope as JSON, signs
the text and turns both into base64 without padding.
-/

set_option autoImplicit false

namespace LawyerAgent.MemberCursors
open Common Envelope Datetimes
open CanonicalJson (encode hex hexValue isHex separated hex_inj)
open JsonReader (write finite decode_encode loads_write)
open JsonText (decimal)
open WireEnvelope (UUID)
open EnvelopeDelivery
open EnvelopeSigning (urlsafe body_plain)
open MembershipRepository (sortedIds mem_sortedIds)
open PythonRepr (digestBytes)
open Base64 (body)
open Outcomes (require require_ok bind_ok)

abbrev Text : Type := List Char

/-- The functions a cursor is written and read with. Of the last three nothing is
assumed: they read what no cursor of this codec holds, JSON that is not compact,
datetimes that are not `isoformat` texts in UTC, and other texts of identifiers. -/
structure Library where
  hmac : List UInt8 → List UInt8 → Digest
  sha256 : List UInt8 → Digest
  loads : List UInt8 → Option Json
  fromisoformat : String → Option PyDatetime
  uuid : String → Option UUID

variable (L : Library)

inductive CursorFailure where
  | invalidMemberCursor (message : String)
  | attributeError
deriving DecidableEq, Repr

def invalid : CursorFailure := .invalidMemberCursor "member cursor is invalid"

/-- The collection an actor may list: the whole tenant or some departments. -/
structure MemberCollectionScope where
  tenantWide : Bool
  departmentIds : List UUID7
  wellFormed : tenantWide = departmentIds.isEmpty

def uuidHex (u : UUID) : Text := digits 16 32 u.toNat

def scopeMaterial (scope : MemberCollectionScope) : Text :=
  if scope.tenantWide = true then "tenant-wide".toList
  else "departments:".toList++
    separated ((sortedIds scope.departmentIds.dedup).map fun id => uuidHex id.int)

def cursorFingerprint (scope : MemberCollectionScope) : String :=
  hex (L.sha256 (encode ("member-collection-scope:v1:".toList++scopeMaterial scope)))

structure MemberCursor where
  createdAt : Datetime
  membershipId : UUID
  uuid7 : isUUID7 membershipId = true
deriving DecidableEq

def memberCursor (createdAt : PyDatetime) (membershipId : UUID) :
    Except CursorFailure MemberCursor :=
  if createdAt.utcoffset = some 0 then
    if h : isUUID7 membershipId = true then .ok ⟨createdAt.wall,membershipId,h⟩
    else .error (.invalidMemberCursor "member cursor membership_id must be UUIDv7")
  else .error (.invalidMemberCursor "member cursor timestamp must be UTC-aware")

/-- `isoformat(timespec="microseconds")` of a datetime in UTC. -/
def isoformat (t : Time) : Text :=
  let second := t/1000000
  let date := civilDate (second/86400)
  let clock := second%86400
  stamp date.1.toNat date.2.1.toNat date.2.2.toNat (clock/3600).toNat (clock/60%60).toNat
    (clock%60).toNat ('.'::digits 10 6 (t%1000000).toNat++['+','0','0',':','0','0'])

def isoInstant (form : Text) : ℤ := readInstant form+decimal ((form.drop 20).take 6)

def fromisoformat : Json → Option PyDatetime
  | .string s =>
    let instant := isoInstant s.toList
    if h : (minDatetime ≤ instant ∧ instant < maxDatetime) ∧ isoformat instant = s.toList then
      some ⟨⟨instant,h.1.1,h.1.2⟩,some 0⟩
    else L.fromisoformat s
  | _ => none

/-- `UUID(hex=value)`; what is neither a text nor `None` has no `replace`. -/
def uuidOf : Json → Except CursorFailure UUID
  | .string s =>
    if isHex 32 s.toList = true then .ok (BitVec.ofNat 128 (hexValue s.toList))
    else
      match L.uuid s with
      | some value => .ok value
      | none => .error invalid
  | .null => .error invalid
  | _ => .error .attributeError

def b64urlEncode (value : List UInt8) : Text := body urlsafe value

def b64urlDecode (value : Text) : Except CursorFailure (List UInt8) :=
  if (!value.isEmpty && value.all base64UrlChar) = true then
    match Base64.decode urlsafe (value++List.replicate ((4-value.length%4)%4) '=') with
    | .error _ => .error invalid
    | .ok decoded => if b64urlEncode decoded = value then .ok decoded else .error invalid
  else .error invalid

def cursorPrefix : List UInt8 := encode "member-cursor:v1:".toList

def cursorSignature (secret payload : List UInt8) : List UInt8 :=
  digestBytes (L.hmac secret (cursorPrefix++payload))

def cursorFields (tenantId : UUID7) (scope : MemberCollectionScope) (cursor : MemberCursor) :
    JsonObject :=
  [("c",.string (String.ofList (isoformat cursor.createdAt.instant))),
    ("i",.string (String.ofList (uuidHex cursor.membershipId))),
    ("s",.string (cursorFingerprint L scope)),
    ("t",.string (String.ofList (uuidHex tenantId.int))),("v",.number 1)]

/-- `MemberCursorCodec.encode` -/
def encodeCursor (secret : List UInt8) (tenantId : UUID7) (scope : MemberCollectionScope)
    (cursor : MemberCursor) : Text :=
  let payload := encode (write (.object (cursorFields L tenantId scope cursor)))
  b64urlEncode (payload++cursorSignature L secret payload)

def loads (payload : List UInt8) : Option Json :=
  match readJson payload with
  | some value => some value
  | none => L.loads payload

def cursorKeys : List String := ["c","i","s","t","v"]

def sameKeys (fields : JsonObject) : Bool :=
  (fields.map Prod.fst).all (cursorKeys.contains ·) &&
    cursorKeys.all ((fields.map Prod.fst).contains ·)

def field (fields : JsonObject) (key : String) : Json := (fields.lookup key).getD .null

/-- A field that must be the given text; `compare_digest` takes ASCII texts only. -/
def requireSame (value : Json) (text message : String) : Except CursorFailure Unit :=
  match value with
  | .string s =>
    if s.toList.all (fun c => decide (c.toNat < 128)) = true then
      require (s = text) (.invalidMemberCursor message)
    else .error invalid
  | _ => .error (.invalidMemberCursor message)

def isVersionOne : Json → Bool
  | .number n => n == 1
  | _ => false

def requireDatetime (value : Option PyDatetime) : Except CursorFailure PyDatetime :=
  match value with
  | some t => .ok t
  | none => .error invalid

def readPayload (tenantId : UUID7) (scope : MemberCollectionScope) (payload : List UInt8) :
    Except CursorFailure MemberCursor :=
  match loads L payload with
  | some (.object fields) => do
    require (sameKeys fields = true) invalid
    require (isVersionOne (field fields "v") = true) invalid
    requireSame (field fields "t") (String.ofList (uuidHex tenantId.int))
      "member cursor belongs to another tenant"
    requireSame (field fields "s") (cursorFingerprint L scope)
      "member cursor belongs to another scope"
    let createdAt ← requireDatetime (fromisoformat L (field fields "c"))
    let membershipId ← uuidOf L (field fields "i")
    memberCursor createdAt membershipId
  | _ => .error invalid

/-- `MemberCursorCodec.decode` -/
def decodeCursor (secret : List UInt8) (tenantId : UUID7) (scope : MemberCollectionScope)
    (encoded : Text) : Except CursorFailure MemberCursor := do
  require (encoded ≠ []) invalid
  let packed ← b64urlDecode encoded
  require (32 < packed.length) invalid
  let payload := packed.take (packed.length-32)
  require (packed.drop (packed.length-32) = cursorSignature L secret payload) invalid
  readPayload L tenantId scope payload

variable {L}

theorem readInstant_stamp {y m d h i s : ℕ} {tail : Text} (hy : y < 10^4) (hm : m < 10^2)
    (hd : d < 10^2) (hh : h < 10^2) (hi : i < 10^2) (hs : s < 10^2) (htail : tail.length ≠ 8) :
    readInstant (stamp y m d h i s tail) =
      (civilDay y m d*86400+h*3600+i*60+s)*1000000 := by
  obtain ⟨h₁,h₂,h₃,h₄,h₅,h₆,-,hlength⟩ := stamp_slices y m d h i s tail
  have hmicro : ¬(stamp y m d h i s tail).length = 27 := by omega
  simp only [readInstant,if_neg hmicro,h₁,h₂,h₃,h₄,h₅,h₆]
  rw [decimal_digits hy,decimal_digits hm,decimal_digits hd,decimal_digits hh,decimal_digits hi,
    decimal_digits hs,add_zero]

theorem isoInstant_isoformat {a : ℤ} (ha : minDatetime ≤ a) (ha' : a < maxDatetime) :
    isoInstant (isoformat a) = a := by
  have hdays := day_range ha ha'
  have hyear := civilDate_year hdays.1 hdays.2
  have hmonth := civilDate_month (a/1000000/86400)
  have hday := civilDay_civilDate (a/1000000/86400)
  have hfraction : ((isoformat a).drop 20).take 6 = digits 10 6 (a%1000000).toNat := by
    have hlength := digits_length 10 6 (a%1000000).toNat
    rw [← List.drop_drop (i := 1) (j := 19)]
    unfold isoformat
    rw [(stamp_slices ..).2.2.2.2.2.2.1]
    exact List.take_left' hlength
  have hseconds : readInstant (isoformat a) = a-a%1000000 := by
    unfold isoformat
    rw [readInstant_stamp (by omega) (by omega) (by omega) (by omega) (by omega) (by omega)
      (by simp [digits_length])]
    rw [Int.toNat_of_nonneg (by omega),Int.toNat_of_nonneg (by omega),
      Int.toNat_of_nonneg (by omega),Int.toNat_of_nonneg (by omega),
      Int.toNat_of_nonneg (by omega),Int.toNat_of_nonneg (by omega),hday]
    omega
  unfold isoInstant
  rw [hfraction,hseconds,decimal_field (by omega) (by omega)]
  omega

theorem fromisoformat_isoformat (t : Datetime) :
    fromisoformat L (.string (String.ofList (isoformat t.instant))) = some ⟨t,some 0⟩ := by
  have hinstant := isoInstant_isoformat t.first t.last
  simp only [fromisoformat,String.toList_ofList,hinstant]
  rw [dif_pos ⟨⟨t.first,t.last⟩,trivial⟩]

theorem uuidHex_isHex (u : UUID) : isHex 32 (uuidHex u) = true := by
  simp only [isHex,uuidHex,Bool.and_eq_true,beq_iff_eq,List.all_eq_true,List.contains_iff_mem]
  refine ⟨digits_length 16 32 _,fun c hc => ?_⟩
  obtain ⟨k,hk,rfl⟩ := digits_mem (by decide) hc
  exact CanonicalJson.digit_hex k hk

theorem uuid_bound (u : UUID) : u.toNat < 16^32 := by
  have := u.isLt
  omega

theorem uuidHex_inj {u v : UUID} (h : uuidHex u = uuidHex v) : u = v :=
  BitVec.eq_of_toNat_eq (digits_inj (by decide) (by decide) (uuid_bound u) (uuid_bound v) h)

theorem uuidOf_hex (u : UUID) : uuidOf L (.string (String.ofList (uuidHex u))) = .ok u := by
  simp only [uuidOf,String.toList_ofList,uuidHex_isHex,if_true]
  rw [uuidHex,hexValue_digits (uuid_bound u),BitVec.ofNat_toNat,BitVec.setWidth_eq]

theorem b64url_read {bytes : List UInt8} (h : bytes ≠ []) :
    b64urlEncode bytes ≠ [] ∧ b64urlDecode (b64urlEncode bytes) = .ok bytes := by
  have hlength : 0 < (b64urlEncode bytes).length := by
    have hpos := List.length_pos_iff.mpr h
    rw [b64urlEncode,Base64.body_length]
    omega
  have hne : b64urlEncode bytes ≠ [] := List.length_pos_iff.mp hlength
  have hplain : (b64urlEncode bytes).all base64UrlChar = true :=
    List.all_eq_true.mpr (body_plain bytes)
  have hread : Base64.decode urlsafe (b64urlEncode bytes++
      List.replicate ((4-(b64urlEncode bytes).length%4)%4) '=') = .ok bytes :=
    Base64.decode_padded bytes
  refine ⟨hne,?_⟩
  unfold b64urlDecode
  rw [hplain,List.isEmpty_eq_false_iff.mpr hne,hread]
  simp

theorem loads_fields (tenantId : UUID7) (scope : MemberCollectionScope) (cursor : MemberCursor) :
    loads L (encode (write (.object (cursorFields L tenantId scope cursor)))) =
      some (.object (cursorFields L tenantId scope cursor)) := by
  have hfinite : finite (.object (cursorFields L tenantId scope cursor)) = true := rfl
  have hkeys : ((cursorFields L tenantId scope cursor).map Prod.fst).Nodup := by
    change cursorKeys.Nodup
    decide
  have hread : readJson (encode (write (.object (cursorFields L tenantId scope cursor)))) =
      some (.object (cursorFields L tenantId scope cursor)) := by
    rw [readJson,decode_encode,Option.bind_some,loads_write _ hfinite]
    exact if_pos hkeys
  rw [loads,hread]

theorem requireSame_same {text : String} (message : String)
    (h : ∀ c ∈ text.toList, c.toNat < 128) : requireSame (.string text) text message = .ok () := by
  have hascii : text.toList.all (fun c => decide (c.toNat < 128)) = true :=
    List.all_eq_true.mpr fun c hc => decide_eq_true (h c hc)
  simp only [requireSame,hascii,if_true]
  exact if_pos trivial

theorem uuidHex_ascii (u : UUID) : ∀ c ∈ (String.ofList (uuidHex u)).toList, c.toNat < 128 := by
  rw [String.toList_ofList]
  exact digits_ascii (by decide) (by decide) 32 _

variable (L) in
theorem fingerprint_ascii (scope : MemberCollectionScope) :
    ∀ c ∈ (cursorFingerprint L scope).toList, c.toNat < 128 := by
  unfold cursorFingerprint hex
  rw [String.toList_ofList]
  exact digits_ascii (by decide) (by decide) 64 _

theorem readPayload_fields (tenantId : UUID7) (scope : MemberCollectionScope)
    (cursor : MemberCursor) :
    readPayload L tenantId scope (encode (write (.object (cursorFields L tenantId scope cursor)))) =
      .ok cursor := by
  have hc : field (cursorFields L tenantId scope cursor) "c" =
      .string (String.ofList (isoformat cursor.createdAt.instant)) := rfl
  have hi : field (cursorFields L tenantId scope cursor) "i" =
      .string (String.ofList (uuidHex cursor.membershipId)) := rfl
  have hs : field (cursorFields L tenantId scope cursor) "s" =
      .string (cursorFingerprint L scope) := rfl
  have ht : field (cursorFields L tenantId scope cursor) "t" =
      .string (String.ofList (uuidHex tenantId.int)) := rfl
  have hv : field (cursorFields L tenantId scope cursor) "v" = .number 1 := rfl
  have hkeys : sameKeys (cursorFields L tenantId scope cursor) = true := by
    change (cursorKeys.all (cursorKeys.contains ·) && cursorKeys.all (cursorKeys.contains ·)) = true
    decide
  unfold readPayload
  rw [loads_fields]
  dsimp only
  rw [hkeys,hc,hi,hs,ht,hv,requireSame_same _ (uuidHex_ascii _),
    requireSame_same _ (fingerprint_ascii L scope),fromisoformat_isoformat,uuidOf_hex]
  change memberCursor ⟨cursor.createdAt,some 0⟩ cursor.membershipId = .ok cursor
  rw [memberCursor,if_pos rfl,dif_pos cursor.uuid7]

theorem decodeCursor_encode (secret : List UInt8) (tenantId : UUID7)
    (scope : MemberCollectionScope) (cursor : MemberCursor) :
    decodeCursor L secret tenantId scope (encodeCursor L secret tenantId scope cursor) =
      .ok cursor := by
  have hread := readPayload_fields (L := L) tenantId scope cursor
  have hpayload : 0 < (encode (write (.object (cursorFields L tenantId scope cursor)))).length :=
    (JsonReader.write_length _ rfl).trans (CanonicalJson.encode_length _)
  unfold encodeCursor
  dsimp only
  generalize encode (write (.object (cursorFields L tenantId scope cursor))) = payload at *
  have hlength : (cursorSignature L secret payload).length = 32 := Codes.toBytes_length 32 _
  have hne : payload++cursorSignature L secret payload ≠ [] := by
    rw [← List.length_pos_iff,List.length_append]
    omega
  obtain ⟨hencoded,hpacked⟩ := b64url_read hne
  have hsplit : (payload++cursorSignature L secret payload).length-32 = payload.length := by
    rw [List.length_append,hlength,Nat.add_sub_cancel]
  have hlong : 32 < (payload++cursorSignature L secret payload).length := by
    rw [List.length_append]
    omega
  simp only [decodeCursor,bind_ok,require_ok]
  refine ⟨(),hencoded,_,hpacked,(),hlong,(),?_,?_⟩
  · rw [hsplit,List.drop_left,List.take_left]
  · rw [hsplit,List.take_left]
    exact hread

theorem requireSame_ok {value : Json} {text message : String} {u : Unit}
    (h : requireSame value text message = .ok u) : value = .string text := by
  cases value with
  | string s =>
    unfold requireSame at h
    dsimp only at h
    split at h
    · rw [require_ok.mp h]
    · cases h
  | _ => cases h

variable {cursor : MemberCursor} {scope : MemberCollectionScope}

theorem readPayload_ok {tenantId : UUID7} {payload : List UInt8}
    (h : readPayload L tenantId scope payload = .ok cursor) :
    ∃ fields, loads L payload = some (.object fields) ∧
      field fields "t" = .string (String.ofList (uuidHex tenantId.int)) ∧
      field fields "s" = .string (cursorFingerprint L scope) := by
  unfold readPayload at h
  split at h
  · next fields hloads =>
    obtain ⟨-,-,h⟩ := bind_ok.mp h
    obtain ⟨-,-,h⟩ := bind_ok.mp h
    obtain ⟨_,htenant,h⟩ := bind_ok.mp h
    obtain ⟨_,hscope,-⟩ := bind_ok.mp h
    exact ⟨fields,hloads,requireSame_ok htenant,requireSame_ok hscope⟩
  · cases h

theorem decodeCursor_ok {secret : List UInt8} {tenantId : UUID7} {encoded : Text}
    (h : decodeCursor L secret tenantId scope encoded = .ok cursor) :
    ∃ packed, b64urlDecode encoded = .ok packed ∧
      readPayload L tenantId scope (packed.take (packed.length-32)) = .ok cursor := by
  obtain ⟨-,-,h⟩ := bind_ok.mp h
  obtain ⟨packed,hpacked,h⟩ := bind_ok.mp h
  obtain ⟨-,-,h⟩ := bind_ok.mp h
  obtain ⟨-,-,h⟩ := bind_ok.mp h
  exact ⟨packed,hpacked,h⟩

def SameScope (scope other : MemberCollectionScope) : Prop :=
  scope.tenantWide = other.tenantWide ∧
    ∀ id, id ∈ scope.departmentIds ↔ id ∈ other.departmentIds

theorem material_wide (h : scope.tenantWide = true) :
    (scopeMaterial scope).head? = some 't' ∧ scope.departmentIds = [] := by
  refine ⟨?_,?_⟩
  · rw [scopeMaterial,if_pos h]
    rfl
  · have hempty := scope.wellFormed
    rw [h] at hempty
    exact List.isEmpty_iff.mp hempty.symm

theorem material_departments (h : scope.tenantWide = false) :
    scopeMaterial scope = "departments:".toList++
      separated ((sortedIds scope.departmentIds.dedup).map fun id => uuidHex id.int) := by
  rw [scopeMaterial,h]
  rfl

theorem material_narrow (h : scope.tenantWide = false) :
    (scopeMaterial scope).head? = some 'd' := by
  rw [material_departments h]
  rfl

theorem scopeMaterial_inj {scope other : MemberCollectionScope}
    (h : scopeMaterial scope = scopeMaterial other) : SameScope scope other := by
  cases hwide : scope.tenantWide with
  | true =>
    obtain ⟨hhead,hids⟩ := material_wide hwide
    cases hother : other.tenantWide with
    | true =>
      obtain ⟨-,hids'⟩ := material_wide hother
      exact ⟨hwide.trans hother.symm,fun id => by rw [hids,hids']⟩
    | false =>
      rw [h,material_narrow hother] at hhead
      cases hhead
  | false =>
    cases hother : other.tenantWide with
    | true =>
      have hhead := material_narrow hwide
      rw [h,(material_wide hother).1] at hhead
      cases hhead
    | false =>
      rw [material_departments hwide,material_departments hother] at h
      have hlength : ∀ ids : List UUID7, ∀ p ∈ ids.map fun id => uuidHex id.int,
          p.length = 32 := by
        intro ids p hp
        obtain ⟨id,-,rfl⟩ := List.mem_map.mp hp
        exact digits_length 16 32 _
      have hmaps :=
        JsonReader.separated_inj (by decide) (hlength _) (hlength _) (List.append_cancel_left h)
      have hinjective : Function.Injective fun id : UUID7 => uuidHex id.int :=
        fun _ _ hids => PythonRepr.int_inj (uuidHex_inj hids)
      have hsorted := (List.map_injective_iff.mpr hinjective) hmaps
      refine ⟨hwide.trans hother.symm,fun id => ?_⟩
      rw [← List.mem_dedup,← mem_sortedIds,hsorted,mem_sortedIds,List.mem_dedup]

theorem decodeCursor_other {secret : List UInt8} {tenantId otherId : UUID7}
    {scope other : MemberCollectionScope} {encoded : Text}
    (h : decodeCursor L secret tenantId scope encoded = .ok cursor)
    (hdiffer : ¬(tenantId = otherId ∧ SameScope scope other))
    (hfree : L.sha256 (encode ("member-collection-scope:v1:".toList++scopeMaterial scope)) =
      L.sha256 (encode ("member-collection-scope:v1:".toList++scopeMaterial other)) → scopeMaterial
      scope = scopeMaterial other) :
    ∃ failure, decodeCursor L secret otherId other encoded = .error failure := by
  cases hother : decodeCursor L secret otherId other encoded with
  | error failure => exact ⟨failure,rfl⟩
  | ok found =>
    obtain ⟨packed,hpacked,hread⟩ := decodeCursor_ok h
    obtain ⟨packed',hpacked',hread'⟩ := decodeCursor_ok hother
    cases Except.ok.inj (hpacked.symm.trans hpacked')
    obtain ⟨fields,hloads,htenant,hscope⟩ := readPayload_ok hread
    obtain ⟨fields',hloads',htenant',hscope'⟩ := readPayload_ok hread'
    cases Json.object.inj (Option.some.inj (hloads.symm.trans hloads'))
    have hid := String.ofList_inj.mp (Json.string.inj (htenant.symm.trans htenant'))
    have hprint := Json.string.inj (hscope.symm.trans hscope')
    exact absurd ⟨PythonRepr.int_inj (uuidHex_inj hid),
      scopeMaterial_inj (hfree (hex_inj hprint))⟩ hdiffer

end LawyerAgent.MemberCursors
