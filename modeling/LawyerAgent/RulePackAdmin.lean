import LawyerAgent.IdempotencyFingerprint
import LawyerAgent.IdempotencyService
import LawyerAgent.IndexLeaves
import LawyerAgent.RuleChecks

/-!
# Administration of rule packs

`RulePackAdminHttpService`: packs are created and activated, rules are added,
enabled and disabled, each call in a unit of work of its own. A call with an
idempotency key is reserved before it writes, and its record is completed in the
same unit of work. The audit entries are left out.
-/

set_option autoImplicit false

namespace LawyerAgent.RulePackAdmin
open Relational Common RuleChecks
open PythonText (strip)
open Idempotency IdempotencyRepository IdempotencyService
open IdempotencyFingerprint
open IndexLeaves (idString)

/-- The fields of a `TenantContext` that the calls read. -/
structure TenantContext where
  tenantId : UUID7
  membershipUserId : Option UUID7
  membershipId : Option UUID7

def RuleTriggerKind.value : RuleTriggerKind → String
  | .clauseType => "clause_type"
  | .riskPhrase => "risk_phrase"

def RiskLevel.value : RiskLevel → String
  | .low => "low"
  | .medium => "medium"
  | .high => "high"

structure RulePackStore where
  packs : Table tenantRulePacks
  rules : Table tenantRulePackRules
  records : Records

def RulePackStore.empty : RulePackStore := ⟨Table.empty,Table.empty,Table.empty⟩

def packsOf : Lens RulePackStore (Table tenantRulePacks) where
  get := RulePackStore.packs
  set := fun t s => {s with packs := t}
  get_set := fun _ _ => rfl
  set_get := fun _ => rfl

def rulesOf : Lens RulePackStore (Table tenantRulePackRules) where
  get := RulePackStore.rules
  set := fun t s => {s with rules := t}
  get_set := fun _ _ => rfl
  set_get := fun _ => rfl

def recordsOf : Lens RulePackStore Records where
  get := RulePackStore.records
  set := fun t s => {s with records := t}
  get_set := fun _ _ => rfl
  set_get := fun _ => rfl

inductive RulePackAdminFailure where
  | notFound
  | conflict
  | invalidRequest
  | valueError (message : String)
  | idempotency (failure : IdempotencyFailure)
  | databaseError
deriving DecidableEq

abbrev AdminTx (α : Type) : Type := Tx RulePackAdminFailure RulePackStore α

def idempotencyFailure : IdempotencyFailure → RulePackAdminFailure
  | .valueError message => .valueError message
  | failure => .idempotency failure

/-- The errors of `prepare` are `ValueError`s. -/
def prepareFailure : PrepareError → RulePackAdminFailure
  | .invalidKey message => .valueError message
  | .invalidRequest message => .valueError message

/-- `except ValueError as exc: raise RulePackAdminInvalidRequest` -/
def orInvalidRequest {α : Type} (x : AdminTx α) : AdminTx α := fun s =>
  match x s with
  | .error (.valueError _) => .error .invalidRequest
  | r => r

/-- What every call carries. `recordId` is drawn for a new idempotency record. -/
structure Call where
  context : TenantContext
  idempotencyKey : Option String
  now : Time
  currentTimestamp : Time
  recordId : UUID7

structure CreatePack extends Call where
  name : String
  newPackId : UUID7

structure AddRule extends Call where
  packId : UUID7
  triggerKind : RuleTriggerKind
  label : String
  pattern : String
  riskLevel : RiskLevel
  suggestion : String
  newRuleId : UUID7

structure SetRuleEnabled extends Call where
  packId : UUID7
  ruleId : UUID7
  enabled : Bool

structure ActivatePack extends Call where
  packId : UUID7

/-- `compiles` stands for `re.compile`. -/
structure RulePackAdminService where
  hmac : List UInt8 → List UInt8 → Digest
  sha256 : List UInt8 → Digest
  keyHashSecret : List UInt8
  idempotency : Option (Checked idempotencyServiceChecks)
  compiles : String → Bool

variable (S : RulePackAdminService)

/-- The packs of the tenant; no caller here reads their order. -/
def listPacks (tenantId : UUID7) (s : RulePackStore) : List RulePack :=
  selectRows (fun p => p.tenantId == tenantId) s.packs

def rulesForPack (tenantId packId : UUID7) (s : RulePackStore) : List RulePackRule :=
  selectRows (fun r => r.tenantId == tenantId && r.packId == packId && r.enabled) s.rules

def nextPackVersion (existing : List ℤ) : Except String ℤ :=
  if ∀ v ∈ existing, 1 ≤ v then .ok (existing.foldl max 0+1)
  else .error "pack versions must be positive integers"

def storePack (c : CreatePack) : AdminTx RulePack := do
  if hname : strip c.name.toList ≠ [] then
    require (c.name.utf8ByteSize ≤ 256) (.valueError "rule pack name is too long")
    let existing ← read fun s => (selectRows (fun p => p.tenantId == c.context.tenantId &&
      p.name == c.name) s.packs).map RulePack.version
    let version ← ofExcept .valueError (nextPackVersion existing)
    let pack : RulePack := ⟨c.newPackId,c.context.tenantId,c.name,version,false,hname⟩
    zoom packsOf (insertRow .databaseError pack)
    pure pack
  else fail (.valueError "rule pack name must be non-empty text")

def buildPackRule (c : AddRule) : Except String RulePackRule :=
  if hlabel : strip c.label.toList ≠ [] then
    if strip c.suggestion.toList = [] then .error "rule suggestion must be non-empty text"
    else if strip c.pattern.toList = [] then .error "rule pattern must be non-empty text"
    else if hpattern : c.pattern.utf8ByteSize ≤ 4*1024 then
      if S.compiles c.pattern then
        .ok ⟨c.newRuleId,c.packId,c.context.tenantId,c.triggerKind,c.label,c.pattern,c.riskLevel,
          c.suggestion,true,hlabel,hpattern⟩
      else .error "rule pattern must be valid regex"
    else .error "rule pattern is too large"
  else .error "rule label must be non-empty text"

def findPack (tenantId packId : UUID7) (s : RulePackStore) : Option RulePack :=
  selectRow (fun p => p.tenantId == tenantId && p.id == packId) s.packs

/-- `build_pack_rule` and `add_rule` of the repository. -/
def storeRule (c : AddRule) : AdminTx RulePackRule := do
  let rule ← ofExcept .valueError (buildPackRule S c)
  let pack ← read (findPack c.context.tenantId c.packId)
  require (pack.isSome = true) (.valueError "rule pack does not belong to this tenant")
  zoom rulesOf (insertRow .databaseError rule)
  pure rule

def isRule (c : SetRuleEnabled) (r : RulePackRule) : Bool :=
  r.tenantId == c.context.tenantId && r.packId == c.packId && r.id == c.ruleId

def withEnabled (enabled : Bool) (r : RulePackRule) : RulePackRule := {r with enabled := enabled}

def toggleRow (c : SetRuleEnabled) : AdminTx Bool := do
  let n ← zoom rulesOf (updateRows .databaseError (isRule c) (withEnabled c.enabled))
  pure (n == 1)

def withActive (active : Bool) (p : RulePack) : RulePack := {p with active := active}

def activateRows (c : ActivatePack) : AdminTx Bool := do
  let target ← read (findPack c.context.tenantId c.packId)
  match target with
  | none => pure false
  | some _ => do
    let _ ← zoom packsOf (updateRows .databaseError (fun p => p.tenantId == c.context.tenantId &&
      p.active && p.id != c.packId) (withActive false))
    let n ← zoom packsOf (updateRows .databaseError (fun p => p.tenantId == c.context.tenantId &&
      p.id == c.packId) (withActive true))
    pure (n == 1)

/-- Paths of one key each. -/
def topLevel (names : List String) : Finset JsonPath := (names.map fun name => [name]).toFinset

theorem topLevel_checks {names : List String} (hnames : ∀ name ∈ names, name ≠ "")
    {values : {v : PyValue // distinct v = true}} (h : values.val.isMapping = true) :
    firstError (fingerprintPayloadChecks ⟨values,topLevel names,∅⟩) = none := by
  have hpath : ∀ path ∈ topLevel names, ∃ name ∈ names, path = [name] := by
    intro path hpath
    obtain ⟨name,hname,rfl⟩ := List.mem_map.mp (List.mem_toFinset.mp hpath)
    exact ⟨name,hname,rfl⟩
  have hpaths : pathsOk (topLevel names) = true := by
    apply decide_eq_true
    intro path hmem
    obtain ⟨name,hname,rfl⟩ := hpath path hmem
    exact ⟨List.cons_ne_nil _ _,by simpa using hnames name hname⟩
  have hfront : ∀ left ∈ topLevel names ∪ ∅, ∀ right ∈ topLevel names ∪ ∅,
      ¬(left ≠ right ∧ left.length < right.length ∧ right.take left.length = left) := by
    intro left hleft right hright
    rw [Finset.union_empty] at hleft hright
    obtain ⟨_,-,rfl⟩ := hpath left hleft
    obtain ⟨_,-,rfl⟩ := hpath right hright
    simp
  apply firstError_all
  simp only [fingerprintPayloadChecks,List.forall_mem_cons]
  exact ⟨h,hpaths,by decide,decide_eq_true (Finset.inter_empty _),decide_eq_true hfront,by simp⟩

def packPayload (name : String) : IdempotencyFingerprintPayload where
  value := ⟨⟨.mapping [(.str "name",.str name)],by rfl⟩,topLevel ["name"],∅⟩
  valid := topLevel_checks (by decide) rfl

def ruleNames : List String := ["trigger_kind","label","pattern","risk_level","suggestion"]

def ruleValues (c : AddRule) : PyValue :=
  .mapping [(.str "trigger_kind",.str (RuleTriggerKind.value c.triggerKind)),
    (.str "label",.str c.label),(.str "pattern",.str c.pattern),
    (.str "risk_level",.str (RiskLevel.value c.riskLevel)),(.str "suggestion",.str c.suggestion)]

def rulePayload (c : AddRule) : IdempotencyFingerprintPayload where
  value := ⟨⟨ruleValues c,by rfl⟩,topLevel ruleNames,∅⟩
  valid := topLevel_checks (by decide) rfl

def togglePayload (c : SetRuleEnabled) : IdempotencyFingerprintPayload where
  value := ⟨⟨.mapping [(.str "pack_id",.str (idString c.packId)),
      (.str "rule_id",.str (idString c.ruleId)),(.str "enabled",.bool c.enabled)],by rfl⟩,
    topLevel ["pack_id","rule_id","enabled"],∅⟩
  valid := topLevel_checks (by decide) rfl

def activatePayload (c : ActivatePack) : IdempotencyFingerprintPayload where
  value := ⟨⟨.mapping [(.str "pack_id",.str (idString c.packId))],by rfl⟩,topLevel ["pack_id"],∅⟩
  valid := topLevel_checks (by decide) rfl

def createRequest (c : CreatePack) (key : String) : IdempotencyRequest where
  key := key
  method := "POST"
  canonicalRoute := "/api/v1/tenants/\x7btenant_id\x7d/rule-packs"
  body := packPayload c.name

def addRequest (c : AddRule) (key : String) : IdempotencyRequest where
  key := key
  method := "POST"
  canonicalRoute := "/api/v1/tenants/\x7btenant_id\x7d/rule-packs/\x7bpack_id\x7d/rules"
  body := rulePayload c

def toggleRequest (c : SetRuleEnabled) (key : String) : IdempotencyRequest where
  key := key
  method := "PATCH"
  canonicalRoute :=
    "/api/v1/tenants/\x7btenant_id\x7d/rule-packs/\x7bpack_id\x7d/rules/\x7brule_id\x7d"
  body := togglePayload c

def activateRequest (c : ActivatePack) (key : String) : IdempotencyRequest where
  key := key
  method := "POST"
  canonicalRoute := "/api/v1/tenants/\x7btenant_id\x7d/rule-packs/\x7bpack_id\x7d/activate"
  body := activatePayload c

def memberScope (tenantId membershipId : UUID7) : IdempotencyScope :=
  ⟨⟨.membership,membershipId,some tenantId⟩,
    Idempotency.membershipScope_ok tenantId membershipId⟩

def reserveRequest (service : Checked idempotencyServiceChecks) (c : Call) (membershipId : UUID7)
    (operation : String) (prepared : PreparedIdempotencyRequest) : ReserveRequest where
  service := service
  scope := memberScope c.context.tenantId membershipId
  operation := operation
  prepared := prepared
  newId := c.recordId
  now := c.now
  currentTimestamp := c.currentTimestamp

def reserveCall (service : Checked idempotencyServiceChecks) (c : Call) (membershipId : UUID7)
    (operation : String) (request : IdempotencyRequest) : AdminTx IdempotencyReservation := do
  let prepared ← ofExcept prepareFailure (prepare S.hmac S.sha256 S.keyHashSecret request)
  within idempotencyFailure recordsOf
    (reserve (reserveRequest service c membershipId operation prepared.prepared))

theorem packResult_ok (id : UUID7) :
    firstError (idempotencyResultChecks ⟨"rule_pack.pack",id,none,none⟩) = none := by
  apply firstError_all
  simp only [idempotencyResultChecks,List.forall_mem_cons]
  decide

def packResult (id : UUID7) : IdempotencyResultReference :=
  ⟨⟨"rule_pack.pack",id,none,none⟩,packResult_ok id⟩

def ruleResult (id : UUID7) : IdempotencyResultReference :=
  ⟨⟨"rule_pack.rule",id,none,none⟩,by
    apply firstError_all
    simp only [idempotencyResultChecks,List.forall_mem_cons]
    decide⟩

def completeCall (c : Call) (reservation : IdempotencyReservation)
    (result : IdempotencyResultReference) : AdminTx Unit :=
  within idempotencyFailure recordsOf (IdempotencyService.complete reservation result c.now)

/-- The key of a call that goes through the idempotency service; the empty key counts as none. -/
def keyOf (c : Call) : Option (Checked idempotencyServiceChecks × String) :=
  match S.idempotency, c.idempotencyKey with
  | some service, some key => if key = "" then none else some (service,key)
  | _, _ => none

def actorIds (context : TenantContext) : AdminTx UUID7 := do
  let _ ← orFail .conflict context.membershipUserId
  orFail .conflict context.membershipId

def requirePack (tenantId packId : UUID7) : AdminTx RulePack := do
  let packs ← read (listPacks tenantId)
  orFail .notFound (packs.find? fun p => p.id == packId)

def findRuleById (tenantId packId ruleId : UUID7) : AdminTx RulePackRule := do
  let rules ← read (rulesForPack tenantId packId)
  orFail .notFound (rules.find? fun r => r.id == ruleId)

def createOnce (service : Checked idempotencyServiceChecks) (c : CreatePack) (key : String)
    (membershipId : UUID7) : AdminTx RulePack := do
  let reservation ← reserveCall S service c.toCall membershipId "rule_pack.create"
    (createRequest c key)
  match reservation.replay with
  | some replay => requirePack c.context.tenantId replay.value.resultId
  | none => do
    let created ← storePack c
    completeCall c.toCall reservation (packResult created.id)
    pure created

def createPack (c : CreatePack) : AdminTx RulePack := do
  let membershipId ← actorIds c.context
  orInvalidRequest (match keyOf S c.toCall with
    | some (service,key) => createOnce S service c key membershipId
    | none => storePack c)

def addOnce (service : Checked idempotencyServiceChecks) (c : AddRule) (key : String)
    (membershipId : UUID7) : AdminTx RulePackRule := do
  let reservation ← reserveCall S service c.toCall membershipId "rule_pack.add_rule"
    (addRequest c key)
  match reservation.replay with
  | some replay => findRuleById c.context.tenantId c.packId replay.value.resultId
  | none => do
    let stored ← storeRule S c
    completeCall c.toCall reservation (ruleResult stored.id)
    pure stored

def addRule (c : AddRule) : AdminTx RulePackRule := do
  let membershipId ← actorIds c.context
  let _ ← requirePack c.context.tenantId c.packId
  orInvalidRequest (match keyOf S c.toCall with
    | some (service,key) => addOnce S service c key membershipId
    | none => storeRule S c)

def toggleRule (c : SetRuleEnabled) : AdminTx Unit := do
  let _ ← requirePack c.context.tenantId c.packId
  let changed ← toggleRow c
  require (changed = true) .notFound

def setRuleEnabled (c : SetRuleEnabled) : AdminTx Unit :=
  match keyOf S c.toCall with
  | none => toggleRule c
  | some (service,key) => do
    let membershipId ← orFail .conflict c.context.membershipId
    let reservation ← reserveCall S service c.toCall membershipId "rule_pack.set_rule_enabled"
      (toggleRequest c key)
    if reservation.isReplay then pure ()
    else do
      toggleRule c
      completeCall c.toCall reservation (ruleResult c.ruleId)

def activateNow (c : ActivatePack) : AdminTx Unit := do
  let _ ← requirePack c.context.tenantId c.packId
  let activated ← activateRows c
  require (activated = true) .conflict

def activatePack (c : ActivatePack) : AdminTx RulePack :=
  match keyOf S c.toCall with
  | none => do
    activateNow c
    requirePack c.context.tenantId c.packId
  | some (service,key) => do
    let membershipId ← orFail .conflict c.context.membershipId
    let reservation ← reserveCall S service c.toCall membershipId "rule_pack.activate"
      (activateRequest c key)
    if reservation.isReplay then requirePack c.context.tenantId c.packId
    else do
      activateNow c
      completeCall c.toCall reservation (packResult c.packId)
      requirePack c.context.tenantId c.packId

inductive AdminOp where
  | createPack (call : CreatePack)
  | addRule (call : AddRule)
  | setRuleEnabled (call : SetRuleEnabled)
  | activatePack (call : ActivatePack)

def adminStep : AdminOp → RulePackStore → RulePackStore
  | .createPack c, s => commit (createPack S c) s
  | .addRule c, s => commit (addRule S c) s
  | .setRuleEnabled c, s => commit (setRuleEnabled S c) s
  | .activatePack c, s => commit (activatePack S c) s

end LawyerAgent.RulePackAdmin
