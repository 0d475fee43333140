import LawyerAgent.Common
import LawyerAgent.JsonText
import LawyerAgent.Relational.Table

/-!
# Idempotency records

A record binds one key of a scope and operation to the request that used it
first. The key and the canonical request enter as the two digests of a
prepared request.
-/

set_option autoImplicit false

namespace LawyerAgent.Idempotency
open Relational Common JsonText

inductive IdempotencyFailure where
  | conflict
  | inProgress
  | stateError (message : String)
  | valueError (message : String)
  | integrityError
deriving DecidableEq, Repr

inductive IdempotencyScopeType where
  | user
  | membership
  | platform
deriving DecidableEq, Repr

inductive IdempotencyStatus where
  | reserved
  | completed
  | failed
deriving DecidableEq, Repr

inductive IdempotencyMutationEffect where
  | changed
  | noChange
deriving DecidableEq, Repr

def IdempotencyMutationEffect.value : IdempotencyMutationEffect → List Char
  | .changed => ['c','h','a','n','g','e','d']
  | .noChange => ['n','o','_','c','h','a','n','g','e']

structure IdempotencyScopeFields where
  scopeType : IdempotencyScopeType
  scopeId : UUID7
  tenantId : Option UUID7 := none
deriving DecidableEq

def idempotencyScopeChecks : Checks IdempotencyScopeFields := fun s =>
  [(s.scopeType = .membership → s.tenantId.isSome,"idempotency tenant_id must be a UUIDv7"),
   (s.scopeType ≠ .membership → s.tenantId.isNone,
    "only membership idempotency scopes carry tenant_id")]

abbrev IdempotencyScope : Type := Checked idempotencyScopeChecks

theorem membershipScope_ok (tenantId membershipId : UUID7) :
    firstError (idempotencyScopeChecks ⟨.membership,membershipId,some tenantId⟩) = none := rfl

structure PreparedIdempotencyRequest where
  keyHash : Digest
  requestFingerprint : Digest

def lowerChar (c : Char) : Bool := decide ('a' ≤ c ∧ c ≤ 'z')

def codeChar (c : Char) : Bool :=
  lowerChar c || c.isDigit || decide (c ∈ ['_','.',':','-'])

/-- `[a-z][a-z0-9_.:-]{0,tail}` -/
def codeOk (tail : ℕ) (code : List Char) : Bool :=
  match code with
  | [] => false
  | c::rest => lowerChar c && rest.all codeChar && decide (rest.length ≤ tail)

def operationOk (operation : String) : Bool := codeOk 127 operation.toList

structure IdempotencyResultFields where
  resultType : String
  resultId : UUID7
  mutationEffect : Option IdempotencyMutationEffect := none
  cacheAuthzVersion : Option ℕ := none
deriving DecidableEq

def idempotencyResultChecks : Checks IdempotencyResultFields := fun r =>
  [(codeOk 63 r.resultType.toList,"idempotency result type is invalid"),
   (r.cacheAuthzVersion.all fun n => decide (1 ≤ n ∧ n ≤ 2^31-1),
    "idempotency cache authz version is invalid")]

abbrev IdempotencyResultReference : Type := Checked idempotencyResultChecks

def versionKey : List Char := ['\x7b','"','a','"',':']
def effectKey : List Char := [',','"','e','"',':']
def typeKey : List Char := [',','"','t','"',':']

def writeEffect (e : IdempotencyMutationEffect) : List Char := writeString e.value

def resultMetadata (r : IdempotencyResultFields) : List Char :=
  versionKey ++ writeOption (Nat.toDigits 10) r.cacheAuthzVersion ++
  effectKey ++ writeOption writeEffect r.mutationEffect ++
  typeKey ++ writeString r.resultType.toList ++ ['\x7d']

def serializeResultType (r : IdempotencyResultReference) :
    Except IdempotencyFailure String :=
  if r.value.mutationEffect = none ∧ r.value.cacheAuthzVersion = none then
    .ok r.value.resultType
  else if 64 < (resultMetadata r.value).length then
    .error (.stateError "idempotency result metadata is too large")
  else .ok (String.ofList (resultMetadata r.value))

def readEffect (text : List Char) : Option (IdempotencyMutationEffect × List Char) := do
  let (value,rest) ← readString text
  if value = IdempotencyMutationEffect.changed.value then some (.changed,rest)
  else if value = IdempotencyMutationEffect.noChange.value then some (.noChange,rest)
  else none

/-- The object of the three fields as `json.dumps` writes it. -/
def readMetadata (text : List Char) (resultId : UUID7) : Option IdempotencyResultFields := do
  let text ← consume versionKey text
  let (version,text) ← readOption readNat text
  let text ← consume effectKey text
  let (effect,text) ← readOption readEffect text
  let text ← consume typeKey text
  let (resultType,text) ← readString text
  if text = ['\x7d'] then some ⟨String.ofList resultType,resultId,effect,version⟩ else none

def deserializeResultType (value : String) (resultId : UUID7) :
    Except IdempotencyFailure IdempotencyResultReference :=
  if value.toList.head? ≠ some '\x7b' then
    match postInit idempotencyResultChecks ⟨value,resultId,none,none⟩ with
    | .error message => .error (.valueError message)
    | .ok r => .ok r
  else
    match readMetadata value.toList resultId with
    | none => .error (.stateError "idempotency result metadata is invalid")
    | some fields =>
      match postInit idempotencyResultChecks fields with
      | .error _ => .error (.stateError "idempotency result metadata is invalid")
      | .ok r => .ok r

theorem readEffect_write (e : IdempotencyMutationEffect) (rest : List Char) :
    readEffect (writeEffect e++rest) = some (e,rest) := by
  cases e with
  | changed =>
    have h := readString_write IdempotencyMutationEffect.changed.value rest
      (each_of_all (by decide))
    simp [readEffect,writeEffect,h]
  | noChange =>
    have h := readString_write IdempotencyMutationEffect.noChange.value rest
      (each_of_all (by decide))
    have hne : IdempotencyMutationEffect.noChange.value ≠
      IdempotencyMutationEffect.changed.value := by decide
    simp [readEffect,writeEffect,h,hne]

theorem codeOk_plain {tail : ℕ} {code : List Char} (h : codeOk tail code = true) :
    ∀ c ∈ code, c ≠ '"' := by
  have hq : codeChar '"' = false := by decide
  have hl : lowerChar '"' = false := by decide
  cases code with
  | nil => cases h
  | cons d rest =>
    simp only [codeOk,Bool.and_eq_true,List.all_eq_true] at h
    obtain ⟨⟨hd,hrest⟩,-⟩ := h
    intro c hc heq
    rw [heq] at hc
    rcases List.mem_cons.mp hc with hcd | hcr
    · rw [← hcd,hl] at hd
      cases hd
    · have := hrest _ hcr
      rw [hq] at this
      cases this

theorem result_code (r : IdempotencyResultReference) :
    codeOk 63 r.value.resultType.toList = true := by
  have h := firstError_none r.valid (c := (codeOk 63 r.value.resultType.toList,
    "idempotency result type is invalid")) (by simp [idempotencyResultChecks])
  exact h

theorem readVersion_write (version : Option ℕ) (c : Char) (rest : List Char)
    (h : c.isDigit = false) :
    readOption readNat (writeOption (Nat.toDigits 10) version++c::rest) =
      some (version,c::rest) := by
  cases version with
  | none => exact readOption_none readNat (c::rest)
  | some n =>
    have hread := readNat_write n c rest h
    change readOption readNat (Nat.toDigits 10 n++c::rest) = _
    cases hd : Nat.toDigits 10 n with
    | nil => exact absurd hd Nat.toDigits_ne_nil
    | cons d ds =>
      have hdig : d.isDigit = true :=
        Nat.isDigit_of_mem_toDigits (b := 10) (n := n) (by decide) (by decide) (by simp [hd])
      have hn : d ≠ 'n' := by
        rintro rfl
        cases hdig
      rw [hd] at hread
      exact readOption_some hn hread

theorem readEffectOption_write (effect : Option IdempotencyMutationEffect)
    (rest : List Char) :
    readOption readEffect (writeOption writeEffect effect++rest) = some (effect,rest) := by
  cases effect with
  | none => exact readOption_none readEffect rest
  | some e => exact readOption_some (by decide) (readEffect_write e rest)

theorem readMetadata_write (r : IdempotencyResultReference) :
    readMetadata (resultMetadata r.value) r.value.resultId = some r.value := by
  have hcode := codeOk_plain (result_code r)
  have hstring := readString_write r.value.resultType.toList ['\x7d'] hcode
  have heffect := readEffectOption_write r.value.mutationEffect
    (typeKey++(writeString r.value.resultType.toList++['\x7d']))
  have hversion := readVersion_write r.value.cacheAuthzVersion ','
    (effectKey.tail++(writeOption writeEffect r.value.mutationEffect++
      (typeKey++(writeString r.value.resultType.toList++['\x7d'])))) (by decide)
  have hcomma : ∀ text : List Char, ','::(effectKey.tail++text) = effectKey++text :=
    fun _ => rfl
  rw [hcomma] at hversion
  simp only [readMetadata,resultMetadata,List.append_assoc,consume_append,
    Option.bind_eq_bind,Option.bind_some,hversion,heffect,hstring,if_true]
  rw [String.ofList_toList]

theorem deserialize_serialize (r : IdempotencyResultReference) (text : String)
    (h : serializeResultType r = .ok text) :
    deserializeResultType text r.value.resultId = .ok r := by
  unfold serializeResultType at h
  split at h
  · rename_i hplain
    cases h
    have hhead : r.value.resultType.toList.head? ≠ some '\x7b' := by
      have hcode := result_code r
      cases hl : r.value.resultType.toList with
      | nil => simp
      | cons c rest =>
        rw [hl] at hcode
        simp only [codeOk,Bool.and_eq_true] at hcode
        intro hc
        have hb : lowerChar '\x7b' = false := by decide
        have hlow := hcode.1.1
        simp only [List.head?_cons,Option.some.injEq] at hc
        rw [hc,hb] at hlow
        cases hlow
    have hfields : (⟨r.value.resultType,r.value.resultId,none,none⟩ :
        IdempotencyResultFields) = r.value := by
      rw [← hplain.1,← hplain.2]
    rw [deserializeResultType,if_pos hhead,hfields,postInit_value]
  · split at h
    · cases h
    · cases h
      have hhead : (String.ofList (resultMetadata r.value)).toList.head? = some '\x7b' := by
        rw [String.toList_ofList]
        rfl
      rw [deserializeResultType,if_neg (not_not_intro hhead),String.toList_ofList,
        readMetadata_write]
      simp only [postInit_value]

end LawyerAgent.Idempotency
