import LawyerAgent.CitationGate

/-!
# Structured claims

The output of the model is parsed into claims that each bind evidence
identifiers, and the claims are published only if the citation gate allows
every citation of every claim.
-/

set_option autoImplicit false

namespace LawyerAgent.LegalClaims
open Common PythonText LegalVersions CitationGate

structure LegalClaimFields where
  text : String
  evidenceIds : List UUID7
deriving DecidableEq

def legalClaimChecks : Checks LegalClaimFields := fun c =>
  [(nonempty c.text,"claim text must be non-empty text"),
   (c.evidenceIds ≠ [],"claim must bind at least one evidence id"),
   (c.evidenceIds.Nodup,"claim evidence ids must be unique")]

abbrev LegalClaim : Type := Checked legalClaimChecks

inductive ParseFailure where
  | parse (message : String)
  | raised (message : String)
deriving DecidableEq

/-- The parts of the standard library the parser calls. `loads` returns `none` for what
`json.loads` rejects as malformed, `uuid` is the value of `UUID(str(item))`. -/
structure Library where
  loads : List Char → Except ParseFailure (Option Json)
  uuid : Json → Option (BitVec 128)
  splitlines : List Char → List (List Char)

variable (lib : Library)

def claimKeys : List String := ["text","evidence_ids"]

def ofInt (value : BitVec 128) : UUID7 where
  timestamp := value.extractLsb' 80 48
  randomA := value.extractLsb' 64 12
  randomB := value.extractLsb' 0 62

def fence : List Char := ['\x60','\x60','\x60']

def rstrip (text : List Char) : List Char := text.rdropWhile isSpace

def fenced (stripped : List Char) : Option (List Char) :=
  if fence.isPrefixOf stripped then
    match lib.splitlines stripped with
    | _::line::lines =>
      let inner := ['\n'].intercalate (line::lines)
      some (strip (if fence.isSuffixOf (rstrip inner) then (rstrip inner).dropLast.dropLast.dropLast
        else inner))
    | _ => none
  else none

/-- The text from the first opening to the last closing brace. -/
def braced (stripped : List Char) : Option (List Char) :=
  let rest := stripped.dropWhile (· != '\x7b')
  let inner := rest.rdropWhile (· != '\x7d')
  if inner.isEmpty then none else some inner

def candidates (text : List Char) : List (List Char) :=
  strip text::((fenced lib (strip text)).toList++(braced (strip text)).toList)

def parseJsonOnce : List (List Char) → Except ParseFailure (Option Json)
  | [] => .ok none
  | candidate::rest => do
    match ← lib.loads candidate with
    | some payload => pure (some payload)
    | none => parseJsonOnce rest

def claimError (claimIndex : ℕ) (message : String) : ParseFailure :=
  .parse ("claim #"++toString claimIndex++" "++message)

def parseEvidenceIds (claimIndex : ℕ) : List Json → Except ParseFailure (List UUID7)
  | [] => .ok []
  | item::items =>
    match lib.uuid item with
    | none => .error (claimError claimIndex "evidence id is not a UUID")
    | some value =>
      if isUUID7 value then do
        let rest ← parseEvidenceIds claimIndex items
        pure (ofInt value::rest)
      else .error (claimError claimIndex "evidence id is not a UUIDv7")

def maxClaims : ℕ := 20

def maxTextChars : ℕ := 2000

def maxEvidencePerClaim : ℕ := 20

def claimText (claimIndex : ℕ) (raw : JsonObject) : Except ParseFailure String :=
  match raw.lookup "text" with
  | some (.string text) =>
    if !nonempty text then .error (claimError claimIndex "text must be non-empty")
    else if maxTextChars < text.length then
      .error (claimError claimIndex "text exceeds the size limit")
    else .ok text
  | _ => .error (claimError claimIndex "text must be non-empty")

def rawEvidenceIds (claimIndex : ℕ) (raw : JsonObject) : Except ParseFailure (List Json) :=
  match raw.lookup "evidence_ids" with
  | some (.array (id::ids)) =>
    if maxEvidencePerClaim < (id::ids).length then
      .error (claimError claimIndex "exceeds the evidence id limit")
    else .ok (id::ids)
  | _ => .error (claimError claimIndex "must bind at least one evidence id")

def newClaim (fields : LegalClaimFields) : Except ParseFailure LegalClaim :=
  match postInit legalClaimChecks fields with
  | .ok claim => .ok claim
  | .error message => .error (.raised message)

def parseClaim (raw : Json) (claimIndex : ℕ) : Except ParseFailure LegalClaim := do
  match raw with
  | .object raw =>
    if raw.any fun field => !claimKeys.contains field.1 then
      .error (claimError claimIndex "contains unknown keys")
    else
      let text ← claimText claimIndex raw
      let rawIds ← rawEvidenceIds claimIndex raw
      let evidenceIds ← parseEvidenceIds lib claimIndex rawIds
      if ¬ evidenceIds.Nodup then .error (claimError claimIndex "evidence ids must be unique")
      else newClaim ⟨stripString text,evidenceIds⟩
  | _ => .error (claimError claimIndex "must be a JSON object")

def parseClaims (claimIndex : ℕ) : List Json → Except ParseFailure (List LegalClaim)
  | [] => .ok []
  | raw::raws => do
    let claim ← parseClaim lib raw claimIndex
    let claims ← parseClaims (claimIndex+1) raws
    pure (claim::claims)

def parseClaimsText (text : String) : Except ParseFailure (List LegalClaim) := do
  if !nonempty text then .error (.parse "claims output must be non-empty text")
  else
    match ← parseJsonOnce lib (candidates lib text.toList) with
    | none => .error (.parse "claims output is not valid JSON and could not be repaired")
    | some .null =>
      .error (.parse "claims output is not valid JSON and could not be repaired")
    | some (.object payload) =>
      match payload.lookup "claims" with
      | none => .error (.parse "claims output is missing the claims array")
      | some .null => .error (.parse "claims output is missing the claims array")
      | some (.array rawClaims) =>
        if maxClaims < rawClaims.length then
          .error (.parse "claims output exceeds the limit of 20 claims")
        else parseClaims lib 0 rawClaims
      | some _ => .error (.parse "claims output must contain a claims array")
    | some _ => .error (.parse "claims output must be a JSON object")

structure LegalClaimVerdict where
  claimIndex : ℕ
  allowed : Bool
  reason : String
  evidenceId : Option UUID7 := none
deriving DecidableEq

structure LegalClaimGateResult where
  allowed : Bool
  refused : Bool
  reason : String
  verdicts : List LegalClaimVerdict
deriving DecidableEq

def citationsOf (claims : List LegalClaim) : List Citation :=
  claims.zipIdx.flatMap fun claim => claim.1.value.evidenceIds.map fun id => ⟨claim.2,id⟩

/-- The refused citations of one claim. -/
def blockedOf (verdicts : List CitationVerdict) (claimIndex : ℕ) : List CitationVerdict :=
  verdicts.filter fun v => v.claimIndex == some claimIndex && !v.allowed

def claimVerdict (verdicts : List CitationVerdict) (claimIndex : ℕ) : LegalClaimVerdict :=
  match blockedOf verdicts claimIndex with
  | [] => ⟨claimIndex,true,"allowed",none⟩
  | first::_ => ⟨claimIndex,false,first.reason,first.evidenceId⟩

def LegalClaimGate.verify (bundle : EvidenceBundle) (claims : List LegalClaim)
    (targetDate : Date) : LegalClaimGateResult :=
  if claims = [] then ⟨false,true,"no_claims",[]⟩
  else
    let verdicts := CitationGate.verify bundle (citationsOf claims) targetDate
    let claimVerdicts := (List.range claims.length).map (claimVerdict verdicts)
    match claimVerdicts.find? fun v => !v.allowed with
    | none => ⟨true,false,"allowed",claimVerdicts⟩
    | some first => ⟨false,true,"claim_not_supported:"++first.reason,claimVerdicts⟩

variable {bundle : EvidenceBundle} {claims : List LegalClaim} {targetDate : Date}

theorem mem_citationsOf {claim : LegalClaim} {claimIndex : ℕ} {evidenceId : UUID7}
    (hclaim : claims[claimIndex]? = some claim) (hid : evidenceId ∈ claim.value.evidenceIds) :
    (⟨claimIndex,evidenceId⟩ : Citation) ∈ citationsOf claims := by
  rw [citationsOf,List.mem_flatMap]
  refine ⟨(claim,claimIndex),?_,List.mem_map_of_mem hid⟩
  rw [List.mem_zipIdx_iff_getElem?]
  exact hclaim

theorem verifyOne_claim (citation : Citation) :
    (verifyOne bundle citation targetDate).claimIndex = some citation.claimIndex := by
  unfold verifyOne
  cases bundle.find citation.evidenceId with
  | none => rfl
  | some item =>
    simp only
    cases firstError (gateChecks item.value targetDate) with
    | none => rfl
    | some reason => rfl

theorem claimVerdict_allowed {verdicts : List CitationVerdict} {claimIndex : ℕ}
    (h : (claimVerdict verdicts claimIndex).allowed = true) :
    ∀ v ∈ verdicts, v.claimIndex = some claimIndex → v.allowed = true := by
  intro v hv hindex
  have hnone : blockedOf verdicts claimIndex = [] := by
    cases hblocked : blockedOf verdicts claimIndex with
    | nil => rfl
    | cons first rest => simp [claimVerdict,hblocked] at h
  have hkept := List.filter_eq_nil_iff.mp hnone v hv
  simpa [hindex] using hkept

theorem verifyOne_item {citation : Citation}
    (h : (verifyOne bundle citation targetDate).allowed = true) :
    ∃ item, bundle.find citation.evidenceId = some item ∧
      ∀ c ∈ gateChecks item.value targetDate, c.1 = true := by
  cases hfind : bundle.find citation.evidenceId with
  | none => simp [verifyOne,hfind] at h
  | some item => exact ⟨item,rfl,(verifyOne_allowed_iff hfind).mp h⟩

theorem verify_allowed (h : (LegalClaimGate.verify bundle claims targetDate).allowed = true) :
    claims ≠ [] ∧ ∀ claim ∈ claims, ∀ evidenceId ∈ claim.value.evidenceIds,
      ∃ item, bundle.find evidenceId = some item ∧
        ∀ c ∈ gateChecks item.value targetDate, c.1 = true := by
  unfold LegalClaimGate.verify at h
  split_ifs at h with hempty
  refine ⟨hempty,?_⟩
  intro claim hclaim evidenceId hid
  obtain ⟨claimIndex,hindex⟩ := List.getElem?_of_mem hclaim
  have hlt : claimIndex < claims.length := (List.getElem?_eq_some_iff.mp hindex).1
  simp only at h
  split at h
  · rename_i hnone
    have hverdict := List.find?_eq_none.mp hnone _
      (List.mem_map_of_mem (List.mem_range.mpr hlt))
    have hmem : verifyOne bundle ⟨claimIndex,evidenceId⟩ targetDate ∈
        CitationGate.verify bundle (citationsOf claims) targetDate :=
      List.mem_map_of_mem (mem_citationsOf hindex hid)
    have hallowed : (claimVerdict (CitationGate.verify bundle (citationsOf claims) targetDate)
        claimIndex).allowed = true := by simpa using hverdict
    exact verifyOne_item (claimVerdict_allowed hallowed _ hmem (verifyOne_claim _))
  · cases h

def citationReasons : List String :=
  ["evidence_not_in_bundle","evidence_not_authorized","effective_status_unknown",
    "draft_not_effective","published_date_unknown","effective_date_unknown","end_date_unknown",
    "effective_date_conflict","not_effective_on_target_date","repealed_on_target_date"]

def gateReasons : List String :=
  "no_claims"::citationReasons.map ("claim_not_supported:"++·)

theorem verifyOne_reason {citation : Citation}
    (h : (verifyOne bundle citation targetDate).allowed = false) :
    (verifyOne bundle citation targetDate).reason ∈ citationReasons := by
  cases hfind : bundle.find citation.evidenceId with
  | none =>
    simp only [verifyOne,hfind]
    exact List.mem_cons_self
  | some item =>
    cases hfirst : firstError (gateChecks item.value targetDate) with
    | none => simp [verifyOne,hfind,hfirst] at h
    | some reason =>
      simp only [verifyOne,hfind,hfirst]
      have hmem := List.mem_map_of_mem (f := Prod.snd) (firstError_some hfirst)
      exact List.mem_cons_of_mem _ hmem

theorem verify_refused (h : (LegalClaimGate.verify bundle claims targetDate).allowed = false) :
    (LegalClaimGate.verify bundle claims targetDate).reason ∈ gateReasons := by
  unfold LegalClaimGate.verify at h ⊢
  split_ifs at h ⊢ with hempty
  · exact List.mem_cons_self
  · simp only at h ⊢
    split at h
    · cases h
    · rename_i first hfirst
      obtain ⟨claimIndex,-,rfl⟩ := List.mem_map.mp (List.mem_of_find?_eq_some hfirst)
      have hblocked := List.find?_some hfirst
      simp only
      apply List.mem_cons_of_mem
      apply List.mem_map_of_mem
      cases hlist : blockedOf (CitationGate.verify bundle (citationsOf claims) targetDate)
          claimIndex with
      | nil => simp [claimVerdict,hlist] at hblocked
      | cons v rest =>
        have hv : v ∈ blockedOf (CitationGate.verify bundle (citationsOf claims) targetDate)
            claimIndex := by
          rw [hlist]
          exact List.mem_cons_self
        obtain ⟨hmem,hrefused⟩ := List.mem_filter.mp hv
        obtain ⟨citation,-,rfl⟩ := List.mem_map.mp hmem
        simp only [claimVerdict,hlist]
        apply verifyOne_reason
        rw [Bool.and_eq_true,Bool.not_eq_true'] at hrefused
        exact hrefused.2

/-- The item is authorized and in force at the target date as far as its status
and its dates tell. -/
structure InForce (item : EvidenceItemFields) (targetDate : Date) : Prop where
  authorized : item.authorized = true
  known : item.status ≠ .statusUnknown
  adopted : item.status ≠ .draft
  published : ∃ p, item.publishedOn = some p
  effective : ∃ e, item.effectiveOn = some e ∧ e ≤ targetDate ∧
    ∀ r, item.repealedOn = some r → e ≤ r
  dated : item.status = .repealed ∨ item.status = .historical → ∃ r, item.repealedOn = some r
  standing : ∀ r, item.repealedOn = some r → targetDate ≤ r

theorem inForce_iff {item : EvidenceItemFields} :
    (∀ c ∈ gateChecks item targetDate, c.1 = true) ↔ InForce item targetDate := by
  have hended : item.status ∈ [LegalVersionStatus.repealed,.historical] ↔
      item.status = .repealed ∨ item.status = .historical := by simp
  simp only [gateChecks,List.forall_mem_cons,Option.isSome_iff_exists,Option.all_eq_true,
    decide_eq_true_eq,Bool.or_eq_true,Bool.not_eq_true',ended,decide_eq_false_iff_not,hended]
  constructor
  · rintro ⟨hauthorized,hknown,hadopted,hpublished,⟨e,he⟩,hdated,hconflict,hle,hstanding,-⟩
    refine ⟨hauthorized,hknown,hadopted,hpublished,⟨e,he,hle e he,hconflict e he⟩,?_,hstanding⟩
    intro hended
    rcases hdated with hopen | hdated
    · exact absurd hended hopen
    · exact hdated
  · intro h
    obtain ⟨e,he,hle,hconflict⟩ := h.effective
    have heffective : ∀ e', item.effectiveOn = some e' → e' = e := fun e' he' =>
      Option.some.inj (he'.symm.trans he)
    refine ⟨h.authorized,h.known,h.adopted,h.published,⟨e,he⟩,?_,?_,?_,h.standing,by simp⟩
    · by_cases hended : item.status = .repealed ∨ item.status = .historical
      · exact Or.inr (h.dated hended)
      · exact Or.inl hended
    · intro e' he'
      rw [heffective e' he']
      exact hconflict
    · intro e' he'
      rw [heffective e' he']
      exact hle

theorem find_iff {evidenceId : UUID7} {item : EvidenceItem} :
    bundle.find evidenceId = some item ↔
      item ∈ bundle.items ∧ item.value.evidenceId = evidenceId := by
  unfold EvidenceBundle.find
  constructor
  · intro h
    have hid := List.find?_some h
    exact ⟨List.mem_of_find?_eq_some h,of_decide_eq_true hid⟩
  · rintro ⟨hmem,hid⟩
    cases hfind : bundle.items.find? fun e => e.value.evidenceId = evidenceId with
    | none =>
      have hnone := List.find?_eq_none.mp hfind item hmem
      simp [hid] at hnone
    | some other =>
      have hsome := List.find?_some hfind
      have hother : other.value.evidenceId = evidenceId := of_decide_eq_true hsome
      rw [List.inj_on_of_nodup_map bundle.distinct (List.mem_of_find?_eq_some hfind) hmem
        (hother.trans hid.symm)]

theorem citationsOf_mem {citation : Citation} (h : citation ∈ citationsOf claims) :
    ∃ claim ∈ claims, citation.evidenceId ∈ claim.value.evidenceIds := by
  obtain ⟨⟨claim,claimIndex⟩,hclaim,hmem⟩ := List.mem_flatMap.mp h
  obtain ⟨evidenceId,hid,rfl⟩ := List.mem_map.mp hmem
  exact ⟨claim,List.mem_of_getElem? (List.mem_zipIdx_iff_getElem?.mp hclaim),hid⟩

theorem verify_publishes (hne : claims ≠ [])
    (h : ∀ claim ∈ claims, ∀ evidenceId ∈ claim.value.evidenceIds,
      ∃ item, bundle.find evidenceId = some item ∧
        ∀ c ∈ gateChecks item.value targetDate, c.1 = true) :
    (LegalClaimGate.verify bundle claims targetDate).allowed = true := by
  have hallowed : ∀ v ∈ CitationGate.verify bundle (citationsOf claims) targetDate,
      v.allowed = true := by
    intro v hv
    obtain ⟨citation,hcitation,rfl⟩ := List.mem_map.mp hv
    obtain ⟨claim,hclaim,hid⟩ := citationsOf_mem hcitation
    obtain ⟨item,hfind,hchecks⟩ := h claim hclaim citation.evidenceId hid
    exact (verifyOne_allowed_iff hfind).mpr hchecks
  have hverdict : ∀ claimIndex, (claimVerdict (CitationGate.verify bundle (citationsOf claims)
      targetDate) claimIndex).allowed = true := by
    intro claimIndex
    have hnone : blockedOf (CitationGate.verify bundle (citationsOf claims) targetDate)
        claimIndex = [] := by
      apply List.filter_eq_nil_iff.mpr
      intro v hv
      simp [hallowed v hv]
    simp [claimVerdict,hnone]
  have hfind : ((List.range claims.length).map (claimVerdict (CitationGate.verify bundle
      (citationsOf claims) targetDate))).find? (fun v => !v.allowed) = none := by
    apply List.find?_eq_none.mpr
    intro v hv
    obtain ⟨claimIndex,-,rfl⟩ := List.mem_map.mp hv
    simp [hverdict claimIndex]
  unfold LegalClaimGate.verify
  rw [if_neg hne]
  simp only [hfind]

/-- The gate allows exactly the claims that cite items in force throughout. -/
theorem gate_allows_iff (bundle : EvidenceBundle) (claims : List LegalClaim) (targetDate : Date) :
    (LegalClaimGate.verify bundle claims targetDate).allowed = true ↔
      claims ≠ [] ∧ ∀ claim ∈ claims, ∀ evidenceId ∈ claim.value.evidenceIds,
        ∃ item ∈ bundle.items, item.value.evidenceId = evidenceId ∧
          InForce item.value targetDate := by
  constructor
  · intro h
    obtain ⟨hne,hcited⟩ := verify_allowed h
    refine ⟨hne,?_⟩
    intro claim hclaim evidenceId hid
    obtain ⟨item,hfind,hchecks⟩ := hcited claim hclaim evidenceId hid
    obtain ⟨hmem,hitem⟩ := find_iff.mp hfind
    exact ⟨item,hmem,hitem,inForce_iff.mp hchecks⟩
  · rintro ⟨hne,hcited⟩
    apply verify_publishes hne
    intro claim hclaim evidenceId hid
    obtain ⟨item,hmem,hitem,hforce⟩ := hcited claim hclaim evidenceId hid
    exact ⟨item,find_iff.mpr ⟨hmem,hitem⟩,inForce_iff.mpr hforce⟩

end LawyerAgent.LegalClaims
