import LawyerAgent.JsonDocuments
import LawyerAgent.LegalClaims
import LawyerAgent.RejoinedLines

/-!
# Parsing the claims of a model output

The text is read as JSON, as the inside of a markdown fence and as the part from
the first to the last brace, until one of them is a JSON document. The claims in
it are checked one by one.
-/

set_option autoImplicit false

namespace LawyerAgent.LegalClaimParse
open Common
open PythonText (isSpace strip decimalZeros)
open PythonJson (PyChar PyText Value plainText keyIs get)
open JsonReader (intText)
open JsonLoads (hexDigit)
open JsonDocuments (Interpreter)
open JsonDecoding (loads)
open RejoinedLines (splitlines joinLines)
open LegalClaims (fence rstrip braced ofInt)

inductive ClaimsFailure where
  /-- `LegalClaimsParseError` -/
  | parseError (message : String)
  /-- `LegalClaimGateError`, of the constructor of a claim -/
  | gateError (message : String)
  | valueError (message : String)
  | recursionError
deriving DecidableEq

def pySpace : PyChar → Bool
  | .scalar c => isSpace c
  | .surrogate _ => false

/-- `text.strip()` of a text that may hold surrogates -/
def pyStrip (text : PyText) : PyText := (text.dropWhile pySpace).rdropWhile pySpace

structure LegalClaim where
  text : PyText
  evidenceIds : List UUID7
  written : pyStrip text ≠ []
  bound : evidenceIds ≠ []
  unique : evidenceIds.Nodup
deriving DecidableEq

structure Limits where
  maxClaims : ℤ := 20
  maxTextChars : ℤ := 2000
  maxEvidencePerClaim : ℤ := 20

/-- `text.replace(word, "")`; `k` characters of an occurrence are still to be left out. -/
def removeWord (word : PyText) : ℕ → PyText → PyText
  | _, [] => []
  | k+1, _::rest => removeWord word k rest
  | 0, c::rest =>
    if word.isPrefixOf (c::rest) then removeWord word (word.length-1) rest
    else c::removeWord word 0 rest

def isBrace (c : PyChar) : Bool := c == .scalar '\x7b' || c == .scalar '\x7d'

/-- `int` reads any blank as a space and any decimal as its digit. -/
def asciiOf : PyChar → Option Char
  | .surrogate _ => none
  | .scalar c =>
    if c.toNat < 128 then some c
    else if isSpace c then some ' '
    else (decimalZeros.find? fun first => first ≤ c.toNat && c.toNat < first+10).map fun first =>
      Char.ofNat (48+(c.toNat-first))

/-- Hexadecimal digits, a single underscore between them where there is one. -/
def readHexDigits : ℕ → List Char → Option ℕ
  | _, [] => none
  | value, c::rest =>
    (hexDigit c).bind fun d =>
      match rest with
      | [] => some (value*16+d)
      | '_'::rest => readHexDigits (value*16+d) rest
      | rest => readHexDigits (value*16+d) rest

def dropSign : List Char → List Char
  | '+'::rest => rest
  | text => text

def dropBase (text : List Char) : List Char :=
  match text with
  | '0'::x::rest =>
    if x = 'x' ∨ x = 'X' then (if rest.head? = some '_' then rest.drop 1 else rest) else text
  | _ => text

/-- `int(text, 16)` of a text without a minus sign -/
def intBase16 (text : PyText) : Option ℕ :=
  (text.mapM asciiOf).bind fun chars => readHexDigits 0 (dropBase (dropSign (strip chars)))

/-- `UUID(text)` -/
def parseUuid (text : PyText) : Option (BitVec 128) :=
  let bare := removeWord (plainText "uuid:".toList) 0 (removeWord (plainText "urn:".toList) 0 text)
  let hex := ((bare.dropWhile isBrace).rdropWhile isBrace).filter fun c => c != .scalar '-'
  if hex.length = 32 then (intBase16 hex).map (BitVec.ofNat 128) else none

/-- Of the values of other types, none is written with 32 hexadecimal digits. -/
def strOf : Value → Option PyText
  | .str text => some text
  | .int n => some (plainText (intText n))
  | _ => none

def uuidOf (item : Value) : Option (BitVec 128) := (strOf item).bind parseUuid

def claimError {α : Type} (claimIndex : ℕ) (message : String) : Except ClaimsFailure α :=
  .error (.parseError ("claim #"++toString claimIndex++" "++message))

def textKey : PyText := plainText "text".toList

def evidenceKey : PyText := plainText "evidence_ids".toList

def claimsKey : PyText := plainText "claims".toList

/-- `LegalClaim(...)` -/
def newClaim (text : PyText) (evidenceIds : List UUID7) : Except ClaimsFailure LegalClaim :=
  if hwritten : pyStrip text ≠ [] then
    if hbound : evidenceIds ≠ [] then
      if hunique : evidenceIds.Nodup then .ok ⟨text,evidenceIds,hwritten,hbound,hunique⟩
      else .error (.gateError "claim evidence ids must be unique")
    else .error (.gateError "claim must bind at least one evidence id")
  else .error (.gateError "claim text must be non-empty text")

variable (limits : Limits)

def claimText (claimIndex : ℕ) (raw : List (Value × Value)) : Except ClaimsFailure PyText :=
  match get raw textKey with
  | .str text =>
    if pyStrip text = [] then claimError claimIndex "text must be non-empty"
    else if limits.maxTextChars < text.length then
      claimError claimIndex "text exceeds the size limit"
    else .ok text
  | _ => claimError claimIndex "text must be non-empty"

def rawEvidenceIds (claimIndex : ℕ) (raw : List (Value × Value)) :
    Except ClaimsFailure (List Value) :=
  match get raw evidenceKey with
  | .list items =>
    if items.isEmpty then claimError claimIndex "must bind at least one evidence id"
    else if limits.maxEvidencePerClaim < items.length then
      claimError claimIndex "exceeds the evidence id limit"
    else .ok items
  | _ => claimError claimIndex "must bind at least one evidence id"

def parseEvidenceIds (claimIndex : ℕ) : List Value → Except ClaimsFailure (List UUID7)
  | [] => .ok []
  | item::items =>
    match uuidOf item with
    | none => claimError claimIndex "evidence id is not a UUID"
    | some value =>
      if isUUID7 value then do
        let rest ← parseEvidenceIds claimIndex items
        .ok (ofInt value::rest)
      else claimError claimIndex "evidence id is not a UUIDv7"

def parseClaim (claimIndex : ℕ) : Value → Except ClaimsFailure LegalClaim
  | .dict raw =>
    if raw.any fun item => !(keyIs textKey item || keyIs evidenceKey item) then
      claimError claimIndex "contains unknown keys"
    else do
      let text ← claimText limits claimIndex raw
      let rawIds ← rawEvidenceIds limits claimIndex raw
      let evidenceIds ← parseEvidenceIds claimIndex rawIds
      if evidenceIds.Nodup then newClaim (pyStrip text) evidenceIds
      else claimError claimIndex "evidence ids must be unique"
  | _ => claimError claimIndex "must be a JSON object"

def parseClaims (claimIndex : ℕ) : List Value → Except ClaimsFailure (List LegalClaim)
  | [] => .ok []
  | raw::raws => do
    let claim ← parseClaim limits claimIndex raw
    let claims ← parseClaims (claimIndex+1) raws
    .ok (claim::claims)

def parsePayload : Option Value → Except ClaimsFailure (List LegalClaim)
  | some (.dict payload) =>
    match get payload claimsKey with
    | .none => .error (.parseError "claims output is missing the claims array")
    | .list rawClaims =>
      if limits.maxClaims < rawClaims.length then
        .error (.parseError ("claims output exceeds the limit of "++toString limits.maxClaims++
          " claims"))
      else parseClaims limits 0 rawClaims
    | _ => .error (.parseError "claims output must contain a claims array")
  | none => .error (.parseError "claims output is not valid JSON and could not be repaired")
  | some .none => .error (.parseError "claims output is not valid JSON and could not be repaired")
  | some _ => .error (.parseError "claims output must be a JSON object")

def fenced (stripped : List Char) : Option (List Char) :=
  if fence.isPrefixOf stripped then
    match splitlines stripped with
    | _::line::lines =>
      let inner := joinLines (line::lines)
      some (strip (if fence.isSuffixOf (rstrip inner) then (rstrip inner).take
        ((rstrip inner).length-3) else inner))
    | _ => none
  else none

/-- The repairs that are tried before the braces. -/
def strictCandidates (text : List Char) : List (List Char) :=
  strip text::(fenced (strip text)).toList

def candidates (text : List Char) : List (List Char) :=
  strictCandidates text++(braced (strip text)).toList

variable (python : Interpreter)

/-- Only a `JSONDecodeError` leads to the next candidate. -/
def parseJsonOnce : List (List Char) → Except ClaimsFailure (Option Value)
  | [] => .ok none
  | candidate::rest =>
    match loads python.frames candidate with
    | .ok value => .ok (some value)
    | .error .malformed => parseJsonOnce rest
    | .error .tooManyDigits =>
      .error (.valueError "Exceeds the limit for integer string conversion")
    | .error .tooDeep => .error .recursionError

def checkLimits : Except ClaimsFailure Unit :=
  if limits.maxClaims < 1 then .error (.valueError "max_claims must be a positive integer")
  else if limits.maxTextChars < 1 then
    .error (.valueError "max_text_chars must be a positive integer")
  else if limits.maxEvidencePerClaim < 1 then
    .error (.valueError "max_evidence_per_claim must be a positive integer")
  else .ok ()

def parseClaimsText (text : List Char) : Except ClaimsFailure (List LegalClaim) :=
  if strip text = [] then .error (.parseError "claims output must be non-empty text")
  else do
    checkLimits limits
    let payload ← parseJsonOnce python (candidates text)
    parsePayload limits payload

structure Limits.Positive (limits : Limits) : Prop where
  claims : 1 ≤ limits.maxClaims
  chars : 1 ≤ limits.maxTextChars
  evidence : 1 ≤ limits.maxEvidencePerClaim

/-- The identifiers of a claim are UUIDv7 by their type. -/
structure Respects (claims : List LegalClaim) : Prop where
  count : claims.length ≤ limits.maxClaims
  texts : ∀ c ∈ claims, c.text.length ≤ limits.maxTextChars
  evidence : ∀ c ∈ claims, c.evidenceIds.length ≤ limits.maxEvidencePerClaim
  unique : ∀ c ∈ claims, c.evidenceIds.Nodup

/-- Claims within the limits, or a `LegalClaimsParseError`. -/
def Safe : Except ClaimsFailure (List LegalClaim) → Prop
  | .ok claims => Respects limits claims
  | .error (.parseError _) => True
  | .error _ => False

theorem ok_bind {α β : Type} (a : α) (f : α → Except ClaimsFailure β) :
    (Except.ok a >>= f) = f a := rfl

theorem pyStrip_length (text : PyText) : (pyStrip text).length ≤ text.length := by
  have hfront := (List.dropWhile_sublist pySpace (l := text)).length_le
  have hback := (List.rdropWhile_prefix pySpace (text.dropWhile pySpace)).length_le
  exact hback.trans hfront

theorem pyStrip_idem (text : PyText) : pyStrip (pyStrip text) = pyStrip text := by
  have hfront : ∀ l : PyText, (l.dropWhile pySpace).head?.all (fun c => !pySpace c) = true := by
    intro l
    cases hhead : (l.dropWhile pySpace).head? with
    | none => rfl
    | some c =>
      have hnot := List.head?_dropWhile_not pySpace l
      rw [hhead] at hnot
      simp only [Option.all_some,hnot,Bool.not_false]
  unfold pyStrip
  have hprefix := List.rdropWhile_prefix pySpace (text.dropWhile pySpace)
  have hdrop : ((text.dropWhile pySpace).rdropWhile pySpace).dropWhile pySpace =
      (text.dropWhile pySpace).rdropWhile pySpace := by
    cases hstrip : (text.dropWhile pySpace).rdropWhile pySpace with
    | nil => rfl
    | cons c rest =>
      rw [hstrip] at hprefix
      obtain ⟨tail,htail⟩ := hprefix
      have hc := hfront text
      rw [← htail,List.cons_append,List.head?_cons,Option.all_some] at hc
      exact List.dropWhile_cons_of_neg (by simpa using hc)
  rw [hdrop]
  exact List.rdropWhile_idempotent pySpace _

theorem newClaim_checked {text : PyText} {evidenceIds : List UUID7}
    (htext : pyStrip text ≠ []) (hbound : evidenceIds ≠ []) (hunique : evidenceIds.Nodup) :
    ∃ claim, newClaim (pyStrip text) evidenceIds = .ok claim ∧ claim.text = pyStrip text ∧
      claim.evidenceIds = evidenceIds := by
  have hwritten : pyStrip (pyStrip text) ≠ [] := by rw [pyStrip_idem]; exact htext
  refine ⟨⟨pyStrip text,evidenceIds,hwritten,hbound,hunique⟩,?_,rfl,rfl⟩
  rw [newClaim,dif_pos hwritten,dif_pos hbound,dif_pos hunique]

theorem claimText_cases (claimIndex : ℕ) (raw : List (Value × Value)) :
    (∃ message, claimText limits claimIndex raw = .error (.parseError message)) ∨
    ∃ text, claimText limits claimIndex raw = .ok text ∧ pyStrip text ≠ [] ∧
      text.length ≤ limits.maxTextChars := by
  unfold claimText
  split
  · rename_i text _
    split_ifs with hblank hlong
    · exact Or.inl ⟨_,rfl⟩
    · exact Or.inl ⟨_,rfl⟩
    · exact Or.inr ⟨text,rfl,hblank,not_lt.mp hlong⟩
  · exact Or.inl ⟨_,rfl⟩

theorem rawEvidenceIds_cases (claimIndex : ℕ) (raw : List (Value × Value)) :
    (∃ message, rawEvidenceIds limits claimIndex raw = .error (.parseError message)) ∨
    ∃ items, rawEvidenceIds limits claimIndex raw = .ok items ∧ items ≠ [] ∧
      items.length ≤ limits.maxEvidencePerClaim := by
  unfold rawEvidenceIds
  split
  · rename_i items _
    split_ifs with hempty hmany
    · exact Or.inl ⟨_,rfl⟩
    · exact Or.inl ⟨_,rfl⟩
    · exact Or.inr ⟨items,rfl,by simpa using hempty,not_lt.mp hmany⟩
  · exact Or.inl ⟨_,rfl⟩

theorem parseEvidenceIds_cases (claimIndex : ℕ) (items : List Value) :
    (∃ message, parseEvidenceIds claimIndex items = .error (.parseError message)) ∨
    ∃ ids, parseEvidenceIds claimIndex items = .ok ids ∧ ids.length = items.length := by
  induction items with
  | nil => exact Or.inr ⟨[],rfl,rfl⟩
  | cons item items ih =>
    unfold parseEvidenceIds
    split
    · exact Or.inl ⟨_,rfl⟩
    · split_ifs
      · rcases ih with ⟨message,hmessage⟩ | ⟨ids,hids,hlength⟩
        · rw [hmessage]
          exact Or.inl ⟨message,rfl⟩
        · rw [hids]
          exact Or.inr ⟨_,rfl,by rw [List.length_cons,List.length_cons,hlength]⟩
      · exact Or.inl ⟨_,rfl⟩

theorem parseClaim_cases (claimIndex : ℕ) (raw : Value) :
    (∃ message, parseClaim limits claimIndex raw = .error (.parseError message)) ∨
    ∃ claim, parseClaim limits claimIndex raw = .ok claim ∧
      claim.text.length ≤ limits.maxTextChars ∧
      claim.evidenceIds.length ≤ limits.maxEvidencePerClaim := by
  unfold parseClaim
  split
  · rename_i fields
    split_ifs
    · exact Or.inl ⟨_,rfl⟩
    rcases claimText_cases limits claimIndex fields with ⟨message,h⟩ | ⟨text,h,hblank,hlong⟩
    · rw [h]
      exact Or.inl ⟨message,rfl⟩
    rw [h,ok_bind]
    rcases rawEvidenceIds_cases limits claimIndex fields with
      ⟨message,h⟩ | ⟨items,h,hempty,hmany⟩
    · rw [h]
      exact Or.inl ⟨message,rfl⟩
    rw [h,ok_bind]
    rcases parseEvidenceIds_cases claimIndex items with ⟨message,h⟩ | ⟨ids,h,hlength⟩
    · rw [h]
      exact Or.inl ⟨message,rfl⟩
    rw [h,ok_bind]
    split_ifs with hunique
    · have hbound : ids ≠ [] := by
        intro hnil
        rw [hnil] at hlength
        exact hempty (List.length_eq_zero_iff.mp hlength.symm)
      obtain ⟨claim,hclaim,htext,hids⟩ := newClaim_checked hblank hbound hunique
      refine Or.inr ⟨claim,hclaim,?_,?_⟩
      · have hshort := pyStrip_length text
        rw [htext]
        omega
      · rw [hids,hlength]
        exact hmany
    · exact Or.inl ⟨_,rfl⟩
  · exact Or.inl ⟨_,rfl⟩

theorem parseClaims_cases (claimIndex : ℕ) (raws : List Value) :
    (∃ message, parseClaims limits claimIndex raws = .error (.parseError message)) ∨
    ∃ claims, parseClaims limits claimIndex raws = .ok claims ∧ claims.length = raws.length ∧
      ∀ c ∈ claims, c.text.length ≤ limits.maxTextChars ∧
        c.evidenceIds.length ≤ limits.maxEvidencePerClaim := by
  induction raws generalizing claimIndex with
  | nil => exact Or.inr ⟨[],rfl,rfl,by simp⟩
  | cons raw raws ih =>
    unfold parseClaims
    rcases parseClaim_cases limits claimIndex raw with ⟨message,h⟩ | ⟨claim,h,hclaim⟩
    · rw [h]
      exact Or.inl ⟨message,rfl⟩
    rw [h,ok_bind]
    rcases ih (claimIndex+1) with ⟨message,h⟩ | ⟨claims,h,hlength,hclaims⟩
    · rw [h]
      exact Or.inl ⟨message,rfl⟩
    · rw [h]
      exact Or.inr ⟨claim::claims,rfl,by rw [List.length_cons,List.length_cons,hlength],
        List.forall_mem_cons.mpr ⟨hclaim,hclaims⟩⟩

theorem parsePayload_safe (payload : Option Value) : Safe limits (parsePayload limits payload) := by
  unfold parsePayload
  split
  · split
    · trivial
    · rename_i raws _
      split_ifs with hmany
      · trivial
      · rcases parseClaims_cases limits 0 raws with ⟨message,h⟩ | ⟨claims,h,hlength,hclaims⟩
        · rw [h]
          trivial
        · rw [h]
          exact ⟨by rw [hlength]; exact not_lt.mp hmany,fun c hc => (hclaims c hc).1,
            fun c hc => (hclaims c hc).2,fun c _ => c.unique⟩
    · trivial
  · trivial
  · trivial
  · trivial

/-- No candidate up to the first JSON document has an integer of too many digits or
containers that do not fit on the stack. -/
def Bounded : List (List Char) → Prop
  | [] => True
  | candidate::rest => loads python.frames candidate ≠ .error .tooManyDigits ∧
      loads python.frames candidate ≠ .error .tooDeep ∧
      (loads python.frames candidate = .error .malformed → Bounded rest)

theorem parseJsonOnce_cases (texts : List (List Char)) :
    (Bounded python texts ∧ ∃ payload, parseJsonOnce python texts = .ok payload) ∨
    ¬Bounded python texts ∧ (parseJsonOnce python texts = .error .recursionError ∨
      ∃ message, parseJsonOnce python texts = .error (.valueError message)) := by
  induction texts with
  | nil => exact Or.inl ⟨trivial,none,rfl⟩
  | cons text texts ih =>
    unfold parseJsonOnce Bounded
    cases hloads : loads python.frames text with
    | ok value => exact Or.inl ⟨⟨by simp,by simp,by simp⟩,some value,rfl⟩
    | error e =>
      cases e with
      | malformed =>
        rcases ih with ⟨hbounded,hpayload⟩ | ⟨hbounded,hfailure⟩
        · exact Or.inl ⟨⟨by simp,by simp,fun _ => hbounded⟩,hpayload⟩
        · exact Or.inr ⟨fun h => hbounded (h.2.2 rfl),hfailure⟩
      | tooManyDigits => exact Or.inr ⟨fun h => h.1 rfl,Or.inr ⟨_,rfl⟩⟩
      | tooDeep => exact Or.inr ⟨fun h => h.2.1 rfl,Or.inl rfl⟩

theorem checkLimits_positive (h : limits.Positive) : checkLimits limits = .ok () := by
  rw [checkLimits,if_neg (not_lt.mpr h.claims),if_neg (not_lt.mpr h.chars),
    if_neg (not_lt.mpr h.evidence)]

theorem blank_bounded {text : List Char} (h : strip text = []) :
    Bounded python (candidates text) := by
  have hcandidates : candidates text = [[]] := by
    rw [candidates,strictCandidates,h]
    rfl
  have hloads : loads python.frames [] = .error .malformed := rfl
  rw [hcandidates,Bounded,hloads]
  exact ⟨by simp,by simp,fun _ => trivial⟩

/-- A text is parsed safely exactly when its candidates stay within the bounds of
the decoder. -/
theorem parse_safe_iff (h : limits.Positive) (text : List Char) :
    Safe limits (parseClaimsText limits python text) ↔ Bounded python (candidates text) := by
  rw [parseClaimsText]
  by_cases hblank : strip text = []
  · rw [if_pos hblank]
    exact ⟨fun _ => blank_bounded python hblank,fun _ => trivial⟩
  · rw [if_neg hblank,checkLimits_positive limits h,ok_bind]
    rcases parseJsonOnce_cases python (candidates text) with
      ⟨hbounded,payload,hparse⟩ | ⟨hbounded,hparse | ⟨message,hparse⟩⟩
    · rw [hparse,ok_bind]
      exact ⟨fun _ => hbounded,fun _ => parsePayload_safe limits payload⟩
    · rw [hparse]
      exact ⟨False.elim,fun h => hbounded h⟩
    · rw [hparse]
      exact ⟨False.elim,fun h => hbounded h⟩

end LawyerAgent.LegalClaimParse
