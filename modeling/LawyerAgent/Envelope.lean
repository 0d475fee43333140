import LawyerAgent.Common

/-!
# AI job envelope

The signed reference that is the only body of a broker message. The digest of
an envelope is taken over its signing input, the canonical bytes of its first
seven fields; the hash itself is a parameter.
-/

set_option autoImplicit false

namespace LawyerAgent.Envelope
open Common

def base64UrlChar (c : Char) : Bool := c.isAlphanum || c == '_' || c == '-'

def kidChar (c : Char) : Bool := base64UrlChar c || c == '.'

def nonceOk (nonce : String) : Bool :=
  nonce.toList.length == 22 && nonce.toList.all base64UrlChar

/-- The kid between `ed25519.` and the dot before the last 86 characters. -/
def signatureKid (signature : String) : Option String :=
  let form := signature.toList
  let tag := "ed25519.".toList
  let kid := (form.drop tag.length).take (form.length-(tag.length+87))
  let rest := form.drop (tag.length+kid.length)
  if form.take tag.length = tag ∧ 1 ≤ kid.length ∧ kid.length ≤ 64 ∧
      kid.all kidChar ∧ rest.length = 87 ∧ rest.head? = some '.' ∧
      rest.tail.all base64UrlChar then
    some (String.ofList kid)
  else none

structure AIJobEnvelopeFields where
  schemaVersion : ℕ
  messageId : UUID7
  jobId : UUID7
  tenantId : UUID7
  correlationId : UUID7
  issuedAt : Time
  nonce : String
  signature : String
deriving DecidableEq

def aiJobEnvelopeChecks : Checks AIJobEnvelopeFields := fun e =>
  [(e.schemaVersion = 1,"input should be 1"),
   (nonceOk e.nonce,"nonce must be an unpadded Base64URL 128-bit value"),
   ((signatureKid e.signature).isSome,
    "signature must use the ed25519.<kid>.<base64url> form")]

abbrev AIJobEnvelope : Type := Checked aiJobEnvelopeChecks

def kid (e : AIJobEnvelope) : Option String := signatureKid e.value.signature

def digit (n : ℕ) : Char :=
  if n < 10 then Char.ofNat (48+n) else Char.ofNat (87+n)

/-- The last `width` digits, most significant first. -/
def digits (base : ℕ) : ℕ → ℕ → List Char
  | 0, _ => []
  | width+1, n => digits base width (n/base) ++ [digit (n%base)]

def uuidText (u : UUID7) : List Char :=
  let hex := digits 16 32 u.int.toNat
  hex.take 8 ++ '-'::(hex.drop 8).take 4 ++ '-'::(hex.drop 12).take 4 ++
    '-'::(hex.drop 16).take 4 ++ '-'::hex.drop 20

/-- Proleptic Gregorian year, month and day of a day count from 1970-01-01. -/
def civilDate (day : ℤ) : ℤ × ℤ × ℤ :=
  let z := day+719468
  let era := z/146097
  let doe := z%146097
  let yoe := (doe-doe/1460+doe/36524-doe/146096)/365
  let doy := doe-(365*yoe+yoe/4-yoe/100)
  let mp := (5*doy+2)/153
  let month := if mp < 10 then mp+3 else mp-9
  (yoe+era*400+(if month ≤ 2 then 1 else 0),month,doy-(153*mp+2)/5+1)

def canonicalDatetime (value : Time) : List Char :=
  let second := value/1000000
  let micro := value%1000000
  let date := civilDate (second/86400)
  let clock := second%86400
  let field (width : ℕ) (n : ℤ) := digits 10 width n.toNat
  field 4 date.1 ++ '-'::field 2 date.2.1 ++ '-'::field 2 date.2.2 ++
    'T'::field 2 (clock/3600) ++ ':'::field 2 (clock/60%60) ++
    ':'::field 2 (clock%60) ++
    (if micro = 0 then [] else '.'::field 6 micro) ++ ['Z']

example : canonicalDatetime (seconds 1788393600) = "2026-09-03T00:00:00Z".toList := by
  decide

def canonicalParts (e : AIJobEnvelopeFields) : List (List Char × List Char) :=
  [("schema_version".toList,"1".toList),
   ("message_id".toList,uuidText e.messageId),
   ("job_id".toList,uuidText e.jobId),
   ("tenant_id".toList,uuidText e.tenantId),
   ("correlation_id".toList,uuidText e.correlationId),
   ("issued_at".toList,canonicalDatetime e.issuedAt),
   ("nonce".toList,e.nonce.toList)]

def bigEndian4 (n : ℕ) : List UInt8 :=
  [(n>>>24).toUInt8,(n>>>16).toUInt8,(n>>>8).toUInt8,n.toUInt8]

def lengthPrefixed (text : List Char) : List UInt8 :=
  bigEndian4 text.length ++ text.map fun c => c.toNat.toUInt8

def canonicalBytes (e : AIJobEnvelopeFields) : List UInt8 :=
  (canonicalParts e).flatMap fun part => lengthPrefixed part.1 ++ lengthPrefixed part.2

def envelopeDigest (sha256 : List UInt8 → Digest) (e : AIJobEnvelope) : Digest :=
  sha256 (canonicalBytes e.value)

end LawyerAgent.Envelope
