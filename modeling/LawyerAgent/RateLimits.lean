import LawyerAgent.CanonicalJson
import LawyerAgent.IdentityRegistration
import LawyerAgent.PythonText
import LawyerAgent.Throttle.Shelf
import LawyerAgent.WireEnvelope
import Mathlib.Data.Rat.Floor

/-!
# Rate limits

`RateLimiter.consume` runs one script in Redis. For every bucket of the rule the
script refills what the clock allows, it takes one token out of each bucket if all
of them have one, and writes every bucket back with a time to live. Numbers are
exact.
-/

set_option autoImplicit false

namespace LawyerAgent.RateLimits
open Common IdentityRegistration
open CanonicalJson (encode)
open PythonText (stripString)
open WireEnvelope (UUID uuidString)
open Throttle (Retention)

inductive RateLimitRule where
  | register
  | login
  | refresh
  | reauth
  | switchTenant
deriving DecidableEq

def RateLimitRule.value : RateLimitRule → String
  | register => "register"
  | login => "login"
  | refresh => "refresh"
  | reauth => "reauth"
  | switchTenant => "switch"

inductive Dimension where
  | ip
  | identity
  | session
deriving DecidableEq

def Dimension.value : Dimension → String
  | ip => "ip"
  | identity => "identity"
  | session => "session"

structure BucketPolicy where
  dimension : Dimension
  capacity : ℕ
  windowSeconds : ℕ
deriving DecidableEq

def policies : RateLimitRule → List BucketPolicy
  | .register => [⟨.ip,5,3600⟩]
  | .login => [⟨.ip,20,900⟩,⟨.identity,5,900⟩]
  | .refresh => [⟨.session,30,900⟩]
  | .reauth => [⟨.session,5,900⟩]
  | .switchTenant => [⟨.session,10,900⟩]

theorem policy_positive {rule : RateLimitRule} {policy : BucketPolicy}
    (h : policy ∈ policies rule) : 0 < policy.capacity ∧ 0 < policy.windowSeconds := by
  cases rule <;> revert policy <;> decide

inductive Failure where
  | valueError (message : String)
  | dependencyUnavailable
  | dependencyInvalidResponse
deriving DecidableEq, Repr

structure PhoneNumber where
  countryCode : ℕ
  validForChina : Bool
  mobile : Bool
  e164 : String

structure EmailAddress where
  localPart : String
  domain : String
  asciiDomain : Option String

/-- HMAC-SHA256, the tables of Unicode, and the parsers of the packages
`phonenumbers` and `email_validator`. -/
structure Library where
  hmac : List UInt8 → List UInt8 → Digest
  nfkc : String → String
  casefold : String → String
  lower : String → String
  parsePhone : String → Option PhoneNumber
  validateEmail : String → Option EmailAddress
  idna : String → Option String

variable (L : Library)

/-- `none` is a `ValueError`. -/
def normalizeUsername (value : String) : Option String :=
  let normalized := L.casefold (stripString (L.nfkc value))
  if normalized = "" then none else some normalized

def normalizePhone (value : String) : Option String :=
  match L.parsePhone (stripString value) with
  | none => none
  | some parsed =>
    if parsed.countryCode ≠ 86 then none
    else if parsed.validForChina = false then none
    else if parsed.mobile = false then none
    else some parsed.e164

def normalizeEmail (value : String) : Option String :=
  match L.validateEmail (stripString value) with
  | none => none
  | some validated =>
    match validated.asciiDomain.or (L.idna validated.domain) with
    | none => none
    | some asciiDomain => some (L.casefold validated.localPart++"@"++L.lower asciiDomain)

def normalizeIdentifier (kind : IdentityKind) (value issuer : String) :
    Option NormalizedIdentity :=
  match kind with
  | .username => (normalizeUsername L value).map fun subject => ⟨kind,"local",subject⟩
  | .phone => (normalizePhone L value).map fun subject => ⟨kind,"phone",subject⟩
  | .email => (normalizeEmail L value).map fun subject => ⟨kind,"email",subject⟩
  | .wechatUnionid | .wechatOpenid =>
    let normalizedIssuer := stripString issuer
    if normalizedIssuer = "" then none
    else if 255 < normalizedIssuer.length ∨ '\x00' ∈ normalizedIssuer.toList then none
    else if stripString value = "" ∨ 255 < value.length ∨ '\x00' ∈ value.toList then none
    else some ⟨kind,normalizedIssuer,value⟩

def isSafeText (value : String) : Bool :=
  !value.isEmpty && value.toList.all fun c => !(decide (c.toNat < 32) || c.toNat == 127)

def notNormalized : Failure :=
  .valueError "rate-limit identity dimension must be normalized"

def canonicalIdentity (value : NormalizedIdentity) : Except Failure String :=
  match normalizeIdentifier L value.kind value.subject value.issuer with
  | none => .error notNormalized
  | some canonical =>
    if canonical.kind ≠ value.kind ∨ canonical.issuer ≠ value.issuer ∨
        canonical.subject ≠ value.subject ∨ isSafeText value.issuer = false ∨
        isSafeText value.subject = false then .error notNormalized
    else
      let encoded := value.kind.value++"\x1f"++value.issuer++"\x1f"++value.subject
      if 1024 < (encode encoded.toList).length then
        .error (.valueError "rate-limit identity dimension is too long")
      else .ok encoded

inductive IpVersion where
  | v4
  | v6

def IpVersion.text : IpVersion → String
  | v4 => "4"
  | v6 => "6"

/-- What a caller may put under a dimension; an address by what is read of it. -/
inductive Value where
  | address (version : IpVersion) (compressed : String)
  | uuid (value : UUID)
  | identity (value : NormalizedIdentity)
  | other

def canonicalDimension (dimension : Dimension) (value : Value) : Except Failure String :=
  match dimension with
  | .ip =>
    match value with
    | .address version compressed => .ok ("ipv"++version.text++":"++compressed)
    | _ => .error (.valueError "rate-limit IP dimension must be an ipaddress object")
  | .session =>
    match value with
    | .uuid value =>
      if isUUID7 value = true then .ok ("uuid:"++String.ofList (uuidString value))
      else .error (.valueError "rate-limit session dimension must be an RFC 9562 UUIDv7")
    | _ => .error (.valueError "rate-limit session dimension must be an RFC 9562 UUIDv7")
  | .identity =>
    match value with
    | .identity value => canonicalIdentity L value
    | _ => .error notNormalized

structure Key where
  rule : RateLimitRule
  policy : BucketPolicy
  member : policy ∈ policies rule
  digest : Digest
deriving DecidableEq

structure RateLimiter where
  hmacKey : List UInt8
  keyLength : hmacKey.length = 32

abbrev Dimensions : Type := List (String × Value)

variable (limiter : RateLimiter)

def keyOf (rule : RateLimitRule) (dimensions : Dimensions)
    (policy : {policy // policy ∈ policies rule}) : Except Failure Key := do
  let value := (dimensions.lookup policy.val.dimension.value).getD .other
  let canonical ← canonicalDimension L policy.val.dimension value
  let material :=
    "rate-limit:v1:"++rule.value++":"++policy.val.dimension.value++":"++canonical
  .ok ⟨rule,policy.val,policy.property,L.hmac limiter.hmacKey (encode material.toList)⟩

/-- The keys of a call, in the order of the policies of its rule. -/
def keysOf (rule : RateLimitRule) (dimensions : Dimensions) : Except Failure (List Key) :=
  let required := (policies rule).map fun policy => policy.dimension.value
  if (dimensions.map Prod.fst).toFinset ≠ required.toFinset then
    .error (.valueError "rate-limit dimensions do not match the selected rule")
  else (policies rule).attach.mapM (keyOf L limiter rule dimensions)

/-- What a field of a hash reads as: not there, not a finite number, or a number. -/
inductive Field where
  | missing
  | unreadable
  | number (value : ℚ)
deriving DecidableEq

structure Hash where
  tokens : Field
  updatedMs : Field
  expireAt : ℕ
deriving DecidableEq

abbrev Redis : Type := Key → Option Hash

def hmget (r : Retention) (redis : Redis) (nowMs : ℕ) (key : Key) : Field × Field :=
  match redis key with
  | none => (.missing,.missing)
  | some hash =>
    if r.gone hash.expireAt nowMs = true then (.missing,.missing)
    else (hash.tokens,hash.updatedMs)

structure Argument where
  key : Key
  capacity : ℕ
  windowMs : ℕ

def Key.argument (key : Key) : Argument :=
  ⟨key,key.policy.capacity,key.policy.windowSeconds*1000⟩

structure Plan where
  key : Key
  available : ℚ
  retryMs : ℤ
  windowMs : ℕ
  effectiveNowMs : ℚ

def corrupt : String := "corrupt rate-limit state"

def bucketState (capacity nowMs : ℕ) : Field × Field → Except String (ℚ × ℚ)
  | (.missing,.missing) => .ok (capacity,nowMs)
  | (.number tokens,.number updatedMs) =>
    if tokens < 0 ∨ capacity < tokens ∨ updatedMs ≠ ⌊updatedMs⌋ ∨ updatedMs < 0 then
      .error corrupt
    else .ok (tokens,updatedMs)
  | _ => .error corrupt

def retryMs (capacity windowMs : ℕ) (available : ℚ) : ℤ :=
  if available < 1 then ⌈(1-available)*windowMs/capacity⌉ else 0

def plan (r : Retention) (redis : Redis) (nowMs : ℕ) (a : Argument) : Except String Plan :=
  if a.capacity < 1 ∨ a.windowMs < 1 then .error "invalid rate-limit policy"
  else do
    let (tokens,updatedMs) ← bucketState a.capacity nowMs (hmget r redis nowMs a.key)
    let effectiveNowMs := max (nowMs : ℚ) updatedMs
    let elapsedMs := effectiveNowMs-updatedMs
    let available := min (a.capacity : ℚ) (tokens+elapsedMs*a.capacity/a.windowMs)
    .ok ⟨a.key,available,retryMs a.capacity a.windowMs available,a.windowMs,effectiveNowMs⟩

def remainder (allowed : Bool) (available : ℚ) : ℚ :=
  if allowed = true then available-1 else available

/-- `HSET` and `PEXPIRE` -/
def write (allowed : Bool) (nowMs : ℕ) (redis : Redis) (p : Plan) : Redis :=
  Function.update redis p.key
    (some ⟨.number (remainder allowed p.available),.number p.effectiveNowMs,nowMs+p.windowMs⟩)

def rateLimitLua (r : Retention) (nowMs : ℕ) (arguments : List Argument) (redis : Redis) :
    Except String (List ℤ × Redis) := do
  let planned ← arguments.mapM (plan r redis nowMs)
  let allowed := planned.all fun p => !decide (p.available < 1)
  let maximumRetryMs := (planned.map Plan.retryMs).foldl max 0
  let remaining := planned.map fun p => max 0 ⌊remainder allowed p.available⌋
  .ok ([if allowed = true then 1 else 0,remaining.min?.getD 0,
    ⌈(maximumRetryMs : ℚ)/1000⌉],planned.foldl (write allowed nowMs) redis)

structure RateLimitDecision where
  allowed : Bool
  remaining : ℕ
  retryAfterSeconds : ℕ
  retry : allowed = true ↔ retryAfterSeconds = 0
deriving DecidableEq

def rateLimitDecision (allowed : Bool) (remaining retryAfterSeconds : ℤ) :
    Except Failure RateLimitDecision :=
  if hcounters : remaining < 0 ∨ retryAfterSeconds < 0 then
    .error (.valueError "rate-limit counters cannot be negative")
  else if hallowed : allowed = true ∧ retryAfterSeconds ≠ 0 then
    .error (.valueError "an allowed request cannot have Retry-After")
  else if hdenied : allowed = false ∧ retryAfterSeconds < 1 then
    .error (.valueError "a denied request requires Retry-After")
  else .ok ⟨allowed,remaining.toNat,retryAfterSeconds.toNat,by
    cases allowed with
    | true => simp at hallowed; simp [hallowed]
    | false => simp at hdenied; simp; omega⟩

def parseDecision (raw : List ℤ) (maximumRemaining maximumRetryAfter : ℤ) :
    Except Failure (Bool × ℤ × ℤ) :=
  match raw with
  | [allowedRaw,remaining,retryAfter] =>
    if ¬(allowedRaw = 0 ∨ allowedRaw = 1) then .error .dependencyInvalidResponse
    else
      let allowed := decide (allowedRaw = 1)
      if allowed = true ∧ ¬(0 ≤ remaining ∧ remaining ≤ maximumRemaining ∧ retryAfter = 0) then
        .error .dependencyInvalidResponse
      else if allowed = false ∧
          ¬(remaining = 0 ∧ 1 ≤ retryAfter ∧ retryAfter ≤ maximumRetryAfter) then
        .error .dependencyInvalidResponse
      else .ok (allowed,remaining,retryAfter)
  | _ => .error .dependencyInvalidResponse

def maximumRemaining (rule : RateLimitRule) : ℤ :=
  ((policies rule).map fun policy => (policy.capacity : ℤ)-1).min?.getD 0

def maximumRetryAfter (rule : RateLimitRule) : ℤ :=
  ((policies rule).map fun policy =>
    ⌈(policy.windowSeconds : ℚ)/policy.capacity⌉).foldl max 0

def decision (rule : RateLimitRule) (raw : List ℤ) : Except Failure RateLimitDecision := do
  let (allowed,remaining,retryAfter) ←
    parseDecision raw (maximumRemaining rule) (maximumRetryAfter rule)
  rateLimitDecision allowed remaining retryAfter

/-- A call whose script reads `nowMs` off the clock of Redis. An error reply of
the script becomes `RedisDependencyUnavailable`. -/
def consume (r : Retention) (nowMs : ℕ) (rule : RateLimitRule) (dimensions : Dimensions)
    (redis : Redis) : Except Failure RateLimitDecision × Redis :=
  match keysOf L limiter rule dimensions with
  | .error e => (.error e,redis)
  | .ok keys =>
    match rateLimitLua r nowMs (keys.map Key.argument) redis with
    | .error _ => (.error .dependencyUnavailable,redis)
    | .ok (raw,written) => (decision rule raw,written)

/-- Redis may drop a key that is past its expiry at any time. -/
inductive Event where
  | request (reading : ℕ) (rule : RateLimitRule) (dimensions : Dimensions)
  | expire (reading : ℕ) (key : Key)

structure Record where
  reading : ℕ
  keys : List Key
  answer : Except Failure RateLimitDecision

def Record.takes (key : Key) (record : Record) : Bool :=
  match record.answer with
  | .ok d => d.allowed && decide (key ∈ record.keys)
  | .error _ => false

def step (r : Retention) (redis : Redis) : Event → List Record × Redis
  | .request reading rule dimensions =>
    let keys := (keysOf L limiter rule dimensions).toOption.getD []
    let out := consume L limiter r reading rule dimensions redis
    ([⟨reading,keys,out.1⟩],out.2)
  | .expire reading key =>
    ([],fun k =>
      if k = key then (redis k).filter fun hash => !r.gone hash.expireAt reading else redis k)

def run (r : Retention) : Redis → List Event → List Record × Redis
  | redis, [] => ([],redis)
  | redis, e::es =>
    let now := step L limiter r redis e
    let later := run r now.2 es
    (now.1++later.1,later.2)

def start : Redis := fun _ => none

/-- The requests allowed on a bucket with readings from `first` to `last`. -/
def granted (key : Key) (first last : ℕ) (records : List Record) : ℕ :=
  records.countP fun record =>
    record.takes key && decide (first ≤ record.reading) && decide (record.reading ≤ last)

end LawyerAgent.RateLimits
