import LawyerAgent.Base64.Codec
import LawyerAgent.PythonText
import LawyerAgent.WireEnvelope

/-!
# Signing rings

A signature text carries the kid of its key between two dots. The ring accepts
any kid of 1 to 64 characters, the envelope reads back only some of them, and
the decoder of the signature bytes cuts at the first dot after the tag. The
signature scheme itself is a parameter.
-/

set_option autoImplicit false

namespace LawyerAgent.EnvelopeSigning
open Common PythonText WireEnvelope Base64
open Envelope (base64UrlChar kidChar nonceOk signatureKid)

def symbols : List Char :=
  "ABCDEFGHIJKLMNOPQRSTUVWXYZabcdefghijklmnopqrstuvwxyz0123456789".toList

def standardValue (c : Char) : Option ℕ :=
  if c = '+' then some 62
  else if c = '/' then some 63
  else if c ∈ symbols then some (symbols.idxOf c)
  else none

/-- `urlsafe_b64decode` translates `-` and `_` and reads the standard alphabet. -/
def urlsafeValue (c : Char) : Option ℕ :=
  standardValue (if c = '-' then '+' else if c = '_' then '/' else c)

def urlsafeChar (v : ℕ) : Char := (symbols++['-','_']).getD v 'A'

theorem standardValue_lt (c : Char) (v : ℕ) (h : standardValue c = some v) : v < 64 := by
  unfold standardValue at h
  split at h
  · cases h
    decide
  · split at h
    · cases h
      decide
    · split at h
      · rename_i hmem
        cases h
        have hlt := List.idxOf_lt_length_iff.mpr hmem
        have hlength : symbols.length = 62 := by decide
        omega
      · cases h

def urlsafe : Alphabet where
  char := urlsafeChar
  value := urlsafeValue
  value_char := by decide +kernel
  value_lt c := standardValue_lt _
  value_pad := by decide

/-- `b64decode(material, validate=True)` -/
def strictDecode (material : List Char) : Option (List UInt8) :=
  let data := material.takeWhile (· ≠ '=')
  let pads := material.dropWhile (· ≠ '=')
  if data = [] ∧ pads ≠ [] then none
  else if data.any fun c => (standardValue c).isNone then none
  else if pads.any (· ≠ '=') then none
  else if 2 ≤ data.length%4 ∧ 4 < data.length%4+pads.length then none
  else (decode urlsafe material).toOption

abbrev Ring : Type := List (String × List UInt8)

def ringKey (ring : Ring) (kid : String) : Option (List UInt8) :=
  (ring.find? fun entry => entry.1 = kid).map Prod.snd

def decodeKey (fieldName : String) (entry : String × String) :
    Except String (String × List UInt8) :=
  let (kid,material) := entry
  if kid.length < 1 ∨ 64 < kid.length then
    .error (fieldName++" contains an invalid kid")
  else if (strip material.toList).isEmpty then
    .error (fieldName++" contains a blank key for "++kid)
  else if material.toList.any fun c => 128 ≤ c.toNat then
    .error "string argument should contain only ASCII characters"
  else
    match strictDecode material.toList with
    | none => .error (fieldName++" key "++kid++" must be valid Base64")
    | some raw =>
      if raw.length ≠ 32 then
        .error (fieldName++" key "++kid++" must decode to exactly 32 bytes")
      else .ok (kid,raw)

/-- The mapping is a dictionary, so its kids are distinct. -/
def decodeRing (mapping : List (String × String)) (fieldName : String) : Except String Ring :=
  if mapping = [] then .error (fieldName++" must not be empty")
  else
    match mapping.mapM (decodeKey fieldName) with
    | .error message => .error message
    | .ok ring =>
      if (ring.map Prod.snd).Nodup then .ok ring
      else .error (fieldName++" must not repeat decoded key material")

/-- The signature scheme of the cryptography package. -/
structure Ed25519 where
  publicKey : List UInt8 → List UInt8
  validKey : List UInt8 → Bool
  sign : List UInt8 → List UInt8 → List UInt8
  verify : List UInt8 → List UInt8 → List UInt8 → Bool

/-- What its documentation promises: a signature has 64 bytes, and the public
key of a seed accepts the signatures of that seed. -/
structure Ed25519.Lawful (C : Ed25519) : Prop where
  publicKey_valid : ∀ seed, seed.length = 32 → C.validKey (C.publicKey seed) = true
  sign_length : ∀ seed message, seed.length = 32 → (C.sign seed message).length = 64
  verify_length : ∀ key signature message,
    C.verify key signature message = true → signature.length = 64
  verify_sign : ∀ seed message, seed.length = 32 →
    C.verify (C.publicKey seed) (C.sign seed message) message = true

/-- The signature of a message is no signature of another one. -/
def CollisionFree (C : Ed25519) (seed message : List UInt8) : Prop :=
  ∀ other, C.verify (C.publicKey seed) (C.sign seed message) other = true → other = message

inductive EnvelopeError where
  | assertionError
  | envelopeSignatureError (message : String)
deriving DecidableEq

def tag : List Char := "ed25519.".toList

def signatureText (kid : String) (signature : List UInt8) : String :=
  String.ofList (tag++kid.toList++ '.'::body urlsafe signature)

section Scheme

variable (C : Ed25519)

/-- `EnvelopeSigner.sign`; the copy of the envelope is not validated again. -/
def sign (seed : List UInt8) (activeKid : String) (e : AIJobEnvelopeFields) :
    AIJobEnvelopeFields :=
  {e with signature := signatureText activeKid (C.sign seed (canonicalBytes e))}

/-- `partition(".")[2]` -/
def afterDot (text : List Char) : List Char := (text.dropWhile (· ≠ '.')).drop 1

def signatureBytes (signature : String) : Except EnvelopeError (List UInt8) :=
  let encoded := afterDot signature.toList
  let encoded := if '.' ∈ encoded then afterDot encoded else encoded
  match decode urlsafe (encoded++['=','=']) with
  | .ok bytes => .ok bytes
  | .error _ => .error (.envelopeSignatureError "invalid signature encoding")

def verify (verifyRing : Ring) (e : AIJobEnvelopeFields) :
    Except EnvelopeError AIJobEnvelopeFields :=
  match signatureKid e.signature with
  | none => .error .assertionError
  | some kid =>
    match ringKey verifyRing kid with
    | none => .error (.envelopeSignatureError "unknown kid")
    | some key =>
      if C.validKey key = false then .error (.envelopeSignatureError "invalid public key")
      else
        match signatureBytes e.signature with
        | .error error => .error error
        | .ok signature =>
          if C.verify key signature (canonicalBytes e) then .ok e
          else .error (.envelopeSignatureError "signature mismatch")

def publicRing (ring : Ring) : Ring := ring.map fun entry => (entry.1,C.publicKey entry.2)

end Scheme

theorem urlsafeChar_plain : ∀ v < 64, base64UrlChar (urlsafeChar v) = true := by
  decide +kernel

theorem ascii_value : ∀ n < 128, base64UrlChar (Char.ofNat n) = true →
    (urlsafeValue (Char.ofNat n)).isSome = true := by
  decide +kernel

theorem base64UrlChar_value {c : Char} (h : base64UrlChar c = true) :
    (urlsafe.value c).isSome = true := by
  have hc := ascii_value c.toNat (base64UrlChar_ascii h)
  rw [Char.ofNat_toNat] at hc
  exact hc h

theorem kidChar_ne_pad {c : Char} (h : kidChar c = true) : c ≠ '=' := by
  rintro rfl
  exact absurd h (by decide)

theorem body_plain (bytes : List UInt8) :
    ∀ c ∈ body urlsafe bytes, base64UrlChar c = true := by
  intro c hc
  obtain ⟨v,hv,rfl⟩ := body_chars bytes c hc
  exact urlsafeChar_plain v hv

theorem signatureText_toList (kid : String) (signature : List UInt8) :
    (signatureText kid signature).toList = tag++kid.toList++ '.'::body urlsafe signature :=
  String.toList_ofList

theorem signatureKid_text (kid : String) {signature : List UInt8}
    (hlength : signature.length = 64) (hmin : 1 ≤ kid.length) (hmax : kid.length ≤ 64) :
    signatureKid (signatureText kid signature) =
      if kid.toList.all kidChar then some kid else none := by
  rw [← String.length_toList] at hmin hmax
  have hbody : (body urlsafe signature).length = 86 := by
    rw [body_length,hlength]
  have hform : (tag++kid.toList++ '.'::body urlsafe signature).length =
      tag.length+kid.toList.length+87 := by
    simp only [List.length_append,List.length_cons,hbody]
  have hdrop : (tag++kid.toList++ '.'::body urlsafe signature).drop tag.length =
      kid.toList++ '.'::body urlsafe signature := by
    rw [List.append_assoc,List.drop_left]
  have hkid : (kid.toList++ '.'::body urlsafe signature).take
      (tag.length+kid.toList.length+87-(tag.length+87)) = kid.toList := by
    rw [show tag.length+kid.toList.length+87-(tag.length+87) = kid.toList.length by omega,
      List.take_left]
  have hrest : (tag++kid.toList++ '.'::body urlsafe signature).drop
      (tag.length+kid.toList.length) = '.'::body urlsafe signature := by
    rw [← List.length_append,List.drop_left]
  have htag : (tag++kid.toList++ '.'::body urlsafe signature).take tag.length = tag := by
    rw [List.append_assoc,List.take_left]
  have hplain : (body urlsafe signature).all base64UrlChar = true :=
    List.all_eq_true.mpr (body_plain signature)
  have htext : String.ofList kid.toList = kid := String.ofList_toList
  have hname : "ed25519.".toList = tag := rfl
  simp only [signatureKid,signatureText_toList,hname,hform,hdrop,hkid,hrest,htag,htext]
  by_cases hall : kid.toList.all kidChar = true
  · rw [if_pos hall,if_pos]
    exact ⟨trivial,hmin,hmax,hall,by simp [hbody],rfl,hplain⟩
  · rw [if_neg hall,if_neg]
    exact fun h => hall h.2.2.2.1

/-- Past its first dot the kid holds dots only. -/
def dotsLast (kid : List Char) : Bool := (kid.dropWhile (· ≠ '.')).all (· = '.')

theorem afterDot_tag (rest : List Char) : afterDot (tag++rest) = rest := by
  have htag : tag = ['e','d','2','5','5','1','9','.'] := by decide
  rw [htag]
  simp [afterDot]

theorem dropWhile_dot {text : List Char} (h : '.' ∉ text) (rest : List Char) :
    (text++ '.'::rest).dropWhile (· ≠ '.') = '.'::rest := by
  rw [List.dropWhile_append_of_pos]
  · simp
  · intro c hc
    simpa using fun heq : c = '.' => h (heq ▸ hc)

theorem afterDot_front {text : List Char} (h : '.' ∉ text) (rest : List Char) :
    afterDot (text++ '.'::rest) = rest := by
  rw [afterDot,dropWhile_dot h]
  rfl

/-- What is decoded: the encoded bytes, behind whatever the kid has after its
first dot. -/
theorem signatureBytes_text (kid : String) (signature : List UInt8) :
    ∃ front, (dotsLast kid.toList = true → ∀ c ∈ front, c = '.') ∧
      (dotsLast kid.toList = false → ∃ c ∈ front, c ≠ '.') ∧
      (∀ c ∈ front, c ∈ kid.toList ∨ c = '.') ∧
      signatureBytes (signatureText kid signature) =
        match decode urlsafe (front++body urlsafe signature++['=','=']) with
        | .ok bytes => .ok bytes
        | .error _ => .error (.envelopeSignatureError "invalid signature encoding") := by
  have hmem : '.' ∈ kid.toList++ '.'::body urlsafe signature := by simp
  simp only [signatureBytes,signatureText_toList,List.append_assoc,afterDot_tag,if_pos hmem]
  by_cases hdot : '.' ∈ kid.toList
  · obtain ⟨before,after,hkid,hbefore⟩ := List.eq_append_cons_of_mem hdot
    have hdots : dotsLast kid.toList = after.all (· = '.') := by
      rw [hkid,dotsLast,dropWhile_dot hbefore]
      simp
    refine ⟨after++['.'],?_,?_,?_,?_⟩
    · intro hlast c hc
      rw [hdots,List.all_eq_true] at hlast
      rcases List.mem_append.mp hc with hc | hc
      · simpa using hlast c hc
      · simpa using hc
    · intro hlast
      rw [hdots,List.all_eq_false] at hlast
      obtain ⟨c,hc,hne⟩ := hlast
      exact ⟨c,List.mem_append_left _ hc,by simpa using hne⟩
    · intro c hc
      rw [hkid]
      rcases List.mem_append.mp hc with hc | hc
      · exact Or.inl (List.mem_append_right _ (List.mem_cons_of_mem _ hc))
      · exact Or.inr (by simpa using hc)
    · rw [hkid,List.append_assoc,List.cons_append,afterDot_front hbefore]
      simp only [List.append_assoc,List.cons_append,List.nil_append]
  · have hdots : dotsLast kid.toList = true := by
      rw [dotsLast,List.dropWhile_eq_nil_iff.mpr]
      · rfl
      · intro c hc
        simpa using fun heq : c = '.' => hdot (heq ▸ hc)
    refine ⟨[],by simp,by simp [hdots],by simp,?_⟩
    rw [afterDot_front hdot]
    rfl

theorem alphabetic_body (bytes : List UInt8) :
    alphabetic urlsafe (body urlsafe bytes) = (body urlsafe bytes).length :=
  List.countP_eq_length.mpr fun c hc => base64UrlChar_value (body_plain bytes c hc)

/-- The signature bytes are read back where the kid ends in dots only. -/
theorem signatureBytes_read {kid : String} (h : dotsLast kid.toList = true)
    (signature : List UInt8) :
    signatureBytes (signatureText kid signature) = .ok signature := by
  obtain ⟨front,hdots,-,-,hbytes⟩ := signatureBytes_text kid signature
  have hskip : ∀ c ∈ front, c ≠ '=' ∧ urlsafe.value c = none := by
    intro c hc
    rw [hdots h c hc]
    exact ⟨by decide,by decide⟩
  rw [hbytes,List.append_assoc,decode_skip hskip,decode_body]

/-- Otherwise the characters behind the first dot are decoded with it. -/
theorem signatureBytes_long {kid : String} (h : dotsLast kid.toList = false)
    (hkid : kid.toList.all kidChar = true) {signature bytes : List UInt8}
    (hlength : signature.length = 64)
    (hok : signatureBytes (signatureText kid signature) = .ok bytes) : bytes.length ≠ 64 := by
  obtain ⟨front,-,hlong,hfront,hbytes⟩ := signatureBytes_text kid signature
  obtain ⟨c,hc,hne⟩ := hlong h
  have hkidchar : ∀ d ∈ front, kidChar d = true := by
    intro d hd
    rcases hfront d hd with hd | rfl
    · exact List.all_eq_true.mp hkid d hd
    · decide
  have hvalue : (urlsafe.value c).isSome = true := by
    have hchar := hkidchar c hc
    simp only [kidChar,Bool.or_eq_true,beq_iff_eq] at hchar
    rcases hchar with hchar | hchar
    · exact base64UrlChar_value hchar
    · exact absurd hchar hne
  have hpos : 0 < alphabetic urlsafe front := List.countP_pos_iff.mpr ⟨c,hc,hvalue⟩
  have hpad : ∀ d ∈ front++body urlsafe signature, d ≠ '=' := by
    intro d hd
    rcases List.mem_append.mp hd with hd | hd
    · exact kidChar_ne_pad (hkidchar d hd)
    · exact kidChar_ne_pad (by simp [kidChar,body_plain signature d hd])
  rw [hbytes] at hok
  split at hok
  · rename_i decoded hdecoded
    cases hok
    rw [decode_length hpad (by simp) hdecoded,alphabetic,List.countP_append,
      ← alphabetic,← alphabetic,alphabetic_body,body_length,hlength]
    omega
  · cases hok

theorem mapM_ok_mem {α β ε : Type} {f : α → Except ε β} {items : List α} {out : List β}
    (h : items.mapM f = .ok out) : ∀ b ∈ out, ∃ a ∈ items, f a = .ok b := by
  induction items generalizing out with
  | nil =>
    cases h
    simp
  | cons a items ih =>
    rw [List.mapM_cons] at h
    cases ha : f a with
    | error e =>
      rw [ha] at h
      cases h
    | ok b =>
      cases hrest : items.mapM f with
      | error e =>
        rw [ha,hrest] at h
        cases h
      | ok bs =>
        rw [ha,hrest] at h
        cases h
        intro d hd
        rcases List.mem_cons.mp hd with rfl | hd
        · exact ⟨a,List.mem_cons_self,ha⟩
        · obtain ⟨x,hx,hfx⟩ := ih hrest d hd
          exact ⟨x,List.mem_cons_of_mem _ hx,hfx⟩

theorem decodeKey_ok {fieldName : String} {entry : String × String}
    {key : String × List UInt8} (h : decodeKey fieldName entry = .ok key) :
    1 ≤ key.1.length ∧ key.1.length ≤ 64 ∧ key.2.length = 32 := by
  obtain ⟨kid,material⟩ := entry
  simp only [decodeKey] at h
  split at h
  · cases h
  · rename_i hkid
    split at h
    · cases h
    · split at h
      · cases h
      · split at h
        · cases h
        · split at h
          · cases h
          · rename_i hraw
            cases h
            simp only [not_or,not_lt] at hkid
            exact ⟨hkid.1,hkid.2,not_not.mp hraw⟩

theorem ringKey_ok {mapping : List (String × String)} {fieldName : String} {ring : Ring}
    (hring : decodeRing mapping fieldName = .ok ring) {kid : String} {seed : List UInt8}
    (hkid : ringKey ring kid = some seed) :
    1 ≤ kid.length ∧ kid.length ≤ 64 ∧ seed.length = 32 := by
  obtain ⟨entry,hfind,hseed⟩ := Option.map_eq_some_iff.mp hkid
  have hmem := List.mem_of_find?_eq_some hfind
  have hname : entry.1 = kid := by simpa using List.find?_some hfind
  unfold decodeRing at hring
  split at hring
  · cases hring
  · split at hring
    · cases hring
    · rename_i decoded hdecoded
      split at hring
      · cases hring
        obtain ⟨source,-,hkey⟩ := mapM_ok_mem hdecoded entry hmem
        have h := decodeKey_ok hkey
        rw [hname,hseed] at h
        exact h
      · cases hring

theorem publicRing_key (C : Ed25519) {ring : Ring} {kid : String} {seed : List UInt8}
    (h : ringKey ring kid = some seed) :
    ringKey (publicRing C ring) kid = some (C.publicKey seed) := by
  obtain ⟨entry,hfind,hseed⟩ := Option.map_eq_some_iff.mp h
  rw [ringKey,publicRing,List.find?_map]
  have hfind' : ring.find? ((fun e : String × List UInt8 => decide (e.1 = kid)) ∘
      fun e => (e.1,C.publicKey e.2)) = some entry := hfind
  rw [hfind',← hseed]
  rfl

section Verification

variable {C : Ed25519} {ring : Ring} {e g : AIJobEnvelopeFields}

theorem verify_ok_iff : verify C ring e = .ok g ↔ ∃ kid key signature,
    signatureKid e.signature = some kid ∧ ringKey ring kid = some key ∧
    C.validKey key = true ∧ signatureBytes e.signature = .ok signature ∧
    C.verify key signature (canonicalBytes e) = true ∧ g = e := by
  constructor
  · intro h
    unfold verify at h
    split at h
    · cases h
    · rename_i kid hkid
      split at h
      · cases h
      · rename_i key hkey
        split at h
        · cases h
        · rename_i hvalid
          split at h
          · cases h
          · rename_i signature hsignature
            split at h
            · rename_i hverify
              cases h
              exact ⟨kid,key,signature,hkid,hkey,by simpa using hvalid,hsignature,hverify,rfl⟩
            · cases h
  · rintro ⟨kid,key,signature,hkid,hkey,hvalid,hsignature,hverify,rfl⟩
    simp [verify,hkid,hkey,hvalid,hsignature,hverify]

end Verification

section Claims

variable (C : Ed25519) (ring : Ring) (kid : String) (seed : List UInt8)
  (e : AIJobEnvelopeFields)

/-- The signature verifies with the ring's public keys and with every ring that
has the kid, and on no envelope with other signed fields. -/
structure SignsFor : Prop where
  same : verify C (publicRing C ring) (sign C seed kid e) = .ok (sign C seed kid e)
  others : ∀ other, ringKey other kid = some (C.publicKey seed) →
    verify C other (sign C seed kid e) = .ok (sign C seed kid e)
  rejects : CollisionFree C seed (canonicalBytes e) →
    ∀ (f : AIJobEnvelopeFields) (other : Ring), f.schemaVersion = 1 → nonceOk f.nonce = true →
      f.signature = (sign C seed kid e).signature → ¬SignedAlike e f →
      ringKey other kid = some (C.publicKey seed) → ∀ g, verify C other f ≠ .ok g

/-- The kids a signature can carry: allowed characters, and nothing but dots
behind the first dot. -/
def readableKid : Bool := kid.toList.all kidChar && dotsLast kid.toList

end Claims

section Signing

variable {C : Ed25519} {kid : String} {seed : List UInt8}

theorem signed_bytes (C : Ed25519) (seed : List UInt8) (kid : String)
    (e : AIJobEnvelopeFields) : canonicalBytes (sign C seed kid e) = canonicalBytes e := rfl

theorem sign_verifies (hC : C.Lawful) (hseed : seed.length = 32)
    (hmin : 1 ≤ kid.length) (hmax : kid.length ≤ 64) (hkid : readableKid kid = true)
    (e : AIJobEnvelopeFields) {ring : Ring}
    (hkey : ringKey ring kid = some (C.publicKey seed)) :
    verify C ring (sign C seed kid e) = .ok (sign C seed kid e) := by
  simp only [readableKid,Bool.and_eq_true] at hkid
  have hread := signatureKid_text kid (hC.sign_length seed (canonicalBytes e) hseed) hmin hmax
  rw [if_pos hkid.1] at hread
  refine verify_ok_iff.mpr ⟨kid,C.publicKey seed,C.sign seed (canonicalBytes e),hread,hkey,
    hC.publicKey_valid seed hseed,signatureBytes_read hkid.2 _,?_,rfl⟩
  rw [signed_bytes]
  exact hC.verify_sign seed _ hseed

/-- A verified envelope with a signature made here was made for a readable kid,
and its bytes are accepted for that very signature. -/
theorem verified_reads (hC : C.Lawful) (hseed : seed.length = 32)
    (hmin : 1 ≤ kid.length) (hmax : kid.length ≤ 64) {e f g : AIJobEnvelopeFields}
    {ring : Ring} (hkey : ringKey ring kid = some (C.publicKey seed))
    (hsignature : f.signature = (sign C seed kid e).signature)
    (h : verify C ring f = .ok g) : readableKid kid = true ∧
      C.verify (C.publicKey seed) (C.sign seed (canonicalBytes e)) (canonicalBytes f) = true := by
  obtain ⟨k,key,bytes,hk,hfound,-,hbytes,hverify,-⟩ := verify_ok_iff.mp h
  have hlength := hC.sign_length seed (canonicalBytes e) hseed
  have hread := signatureKid_text kid hlength hmin hmax
  rw [hsignature] at hk hbytes
  change signatureKid (signatureText kid (C.sign seed (canonicalBytes e))) = some k at hk
  change signatureBytes (signatureText kid (C.sign seed (canonicalBytes e))) = .ok bytes at hbytes
  rw [hread] at hk
  split at hk
  · rename_i hchars
    cases hk
    obtain rfl := Option.some.inj (hfound.symm.trans hkey)
    have hdots : dotsLast kid.toList = true := by
      by_contra hdots
      exact signatureBytes_long (by simpa using hdots) hchars hlength hbytes
        (hC.verify_length _ _ _ hverify)
    rw [signatureBytes_read hdots] at hbytes
    cases hbytes
    exact ⟨by simp [readableKid,hchars,hdots],hverify⟩
  · cases hk

end Signing

/-- Signing and verification agree exactly on the readable kids. -/
theorem signs_readable (C : Ed25519) (hC : C.Lawful) (mapping : List (String × String))
    (fieldName : String) (ring : Ring) (hring : decodeRing mapping fieldName = .ok ring)
    (kid : String) (seed : List UInt8) (hkid : ringKey ring kid = some seed)
    (e : AIJobEnvelope) : SignsFor C ring kid seed e.value ↔ readableKid kid = true := by
  obtain ⟨hmin,hmax,hseed⟩ := ringKey_ok hring hkid
  have hsame := publicRing_key C hkid
  constructor
  · intro h
    exact (verified_reads hC hseed hmin hmax hsame rfl h.same).1
  · intro hreadable
    refine ⟨sign_verifies hC hseed hmin hmax hreadable e.value hsame,?_,?_⟩
    · intro other hother
      exact sign_verifies hC hseed hmin hmax hreadable e.value hother
    · intro hfree f other hversion hnonce hsignature hdiffer hother g hg
      have hverify := (verified_reads hC hseed hmin hmax hother hsignature hg).2
      have hbytes := hfree _ hverify
      exact hdiffer (canonicalBytes_inj (envelope_nonce e) hnonce
        ((envelope_version e).trans hversion.symm) hbytes.symm)

/-- Signs one message with zeros and every other with ones. -/
def oneMessageScheme (message : List UInt8) : Ed25519 where
  publicKey seed := seed
  validKey key := key.length = 32
  sign _ m := List.replicate 64 (if m = message then 0 else 1)
  verify _ signature m := signature = List.replicate 64 (if m = message then 0 else 1)

theorem oneMessageScheme_lawful (message : List UInt8) : (oneMessageScheme message).Lawful where
  publicKey_valid seed hseed := by simpa [oneMessageScheme] using hseed
  sign_length seed m _ := by simp [oneMessageScheme]
  verify_length key signature m h := by
    simp only [oneMessageScheme,decide_eq_true_eq] at h
    simp [h]
  verify_sign seed m _ := by simp [oneMessageScheme]

theorem oneMessageScheme_zeros (message key : List UInt8) :
    (oneMessageScheme message).verify key (List.replicate 64 0) message = true := by
  simp [oneMessageScheme]

def sampleEnvelope : AIJobEnvelope where
  value :=
    { schemaVersion := 1
      messageId := 1
      jobId := 2
      tenantId := 3
      correlationId := 4
      issuedAt := ⟨seconds 1788393600,by decide,by decide⟩
      nonce := "AAAAAAAAAAAAAAAAAAAAAA"
      signature := String.ofList ("ed25519.dev.".toList++List.replicate 86 'A') }
  valid := by decide

def sampleScheme : Ed25519 := oneMessageScheme (canonicalBytes sampleEnvelope.value)

def sampleKey : String := "AQEBAQEBAQEBAQEBAQEBAQEBAQEBAQEBAQEBAQEBAQE="

theorem decodeRing_single {kid material fieldName : String} {raw : List UInt8}
    (hkid : ¬(kid.length < 1 ∨ 64 < kid.length))
    (hblank : (strip material.toList).isEmpty = false)
    (hascii : (material.toList.any fun c => 128 ≤ c.toNat) = false)
    (hraw : strictDecode material.toList = some raw) (hlength : raw.length = 32) :
    decodeRing [(kid,material)] fieldName = .ok [(kid,raw)] := by
  have hkey : decodeKey fieldName (kid,material) = .ok (kid,raw) := by
    simp only [decodeKey,if_neg hkid,hblank,hascii,hraw,hlength,ne_eq,not_true_eq_false,
      Bool.false_eq_true,if_false]
  have hmap : [(kid,material)].mapM (decodeKey fieldName) = .ok [(kid,raw)] := by
    rw [List.mapM_cons,hkey]
    rfl
  rw [decodeRing,if_neg (by simp),hmap]
  simp

theorem sampleRing_decodes (kid : String) (hkid : ¬(kid.length < 1 ∨ 64 < kid.length)) :
    decodeRing [(kid,sampleKey)] "ring" = .ok [(kid,List.replicate 32 1)] :=
  decodeRing_single hkid (by decide +kernel) (by decide +kernel) (by decide +kernel)
    (by decide)

theorem k2026_signs :
    SignsFor sampleScheme [("k2026",List.replicate 32 1)] "k2026" (List.replicate 32 1)
      sampleEnvelope.value :=
  (signs_readable sampleScheme (oneMessageScheme_lawful _) [("k2026",sampleKey)] "ring" _
    (sampleRing_decodes "k2026" (by decide)) "k2026" _ rfl sampleEnvelope).mpr (by decide)

/-- A ring whose kid has a dot inside is accepted, but what is signed under it
does not verify. -/
theorem dotted_kid_fails :
    decodeRing [("2026.09",sampleKey)] "ring" = .ok [("2026.09",List.replicate 32 1)] ∧
    ¬SignsFor sampleScheme [("2026.09",List.replicate 32 1)] "2026.09" (List.replicate 32 1)
      sampleEnvelope.value := by
  refine ⟨sampleRing_decodes "2026.09" (by decide),?_⟩
  intro h
  have hkid : readableKid "2026.09" = true :=
    (verified_reads (oneMessageScheme_lawful _) (by decide) (by decide) (by decide) rfl rfl
      h.same).1
  exact absurd hkid (by decide)

end LawyerAgent.EnvelopeSigning
