import LawyerAgent.Common
import LawyerAgent.Outcomes.Except
import LawyerAgent.PythonText
import LawyerAgent.Relational.Table

/-!
# Rule checks of a document

The rules of the tenant's active pack run over the provisions of a document. A
match is saved as an open issue unless an open issue has its rule, provision
number and text; an open issue that no match has is marked stale.
-/

set_option autoImplicit false

namespace LawyerAgent.RuleChecks
open Relational Common
open PythonText (strip)

inductive RiskLevel where
  | low
  | medium
  | high
deriving DecidableEq

inductive RiskIssueStatus where
  | opened
  | accepted
  | rejected
  | modified
  | stale
deriving DecidableEq

inductive RuleTriggerKind where
  | clauseType
  | riskPhrase
deriving DecidableEq

structure RulePack where
  id : UUID7
  tenantId : UUID7
  name : String
  version : ℤ
  active : Bool
  named : strip name.toList ≠ []
deriving DecidableEq

structure RulePackRule where
  id : UUID7
  packId : UUID7
  tenantId : UUID7
  triggerKind : RuleTriggerKind
  label : String
  pattern : String
  riskLevel : RiskLevel
  suggestionTemplate : String
  enabled : Bool
  labelled : strip label.toList ≠ []
  bounded : pattern.utf8ByteSize ≤ 4*1024
deriving DecidableEq

structure RiskIssue where
  id : UUID7
  tenantId : UUID7
  ruleId : UUID7
  packId : UUID7
  packVersion : ℤ
  documentId : UUID7
  provisionNo : String
  matchedText : String
  riskLevel : RiskLevel
  status : RiskIssueStatus
  evidenceLevel : String
  dispositionReason : Option String
  raisedAt : Option Time
  disposedAt : Option Time
  ruleBased : evidenceLevel = "rule_based"
  numbered : provisionNo ≠ ""
deriving DecidableEq

structure ProvisionInput where
  provisionNo : String
  text : String
  numbered : strip provisionNo.toList ≠ []
  written : strip text.toList ≠ []

theorem provision_numbered (p : ProvisionInput) : p.provisionNo ≠ "" := by
  intro h
  exact p.numbered (by rw [h]; rfl)

def inInteger (n : ℤ) : Bool := -integerMax-1 ≤ n && n ≤ integerMax

def tenantRulePacks : Schema RulePack UUID7 where
  key := RulePack.id
  check := fun p => decide (p.name.length ≤ 256) && inInteger p.version
  clash := fun p q => p.tenantId == q.tenantId && p.name == q.name && p.version == q.version

def tenantRulePackRules : Schema RulePackRule UUID7 where
  key := RulePackRule.id
  check := fun r => decide (r.label.length ≤ 256) && decide (r.pattern.length ≤ 4096)
  clash := fun _ _ => false

def issueFits (i : RiskIssue) : Bool :=
  inInteger i.packVersion && decide (i.provisionNo.length ≤ 128) &&
    decide (i.matchedText.utf8ByteSize ≤ 65535) &&
    i.dispositionReason.all fun reason => decide (reason.utf8ByteSize ≤ 65535)

def tenantContractRiskIssues : Schema RiskIssue UUID7 where
  key := RiskIssue.id
  check := issueFits
  clash := fun _ _ => false

structure RuleStore where
  packs : Table tenantRulePacks
  rules : Table tenantRulePackRules
  issues : Table tenantContractRiskIssues

def issuesOf : Lens RuleStore (Table tenantContractRiskIssues) where
  get := RuleStore.issues
  set := fun t s => {s with issues := t}
  get_set := fun _ _ => rfl
  set_get := fun _ => rfl

inductive RuleCheckFailure where
  | valueError (text : String)
  | rulePackError (text : String)
  | databaseError
deriving DecidableEq

abbrev RuleTx (α : Type) : Type := Tx RuleCheckFailure RuleStore α

def getActivePack (tenantId : UUID7) : RuleTx (Option RulePack) :=
  read fun s => ((selectRows (fun p => p.tenantId == tenantId && p.active) s.packs).insertionSort
    fun p q => q.version ≤ p.version).head?

def rulesForPack (tenantId packId : UUID7) : RuleTx (List RulePackRule) :=
  read fun s => selectRows
    (fun r => r.tenantId == tenantId && r.packId == packId && r.enabled) s.rules

def findIssue (tenantId issueId : UUID7) : RuleTx (Option RiskIssue) :=
  read fun s => selectRow (fun i => i.tenantId == tenantId && i.id == issueId) s.issues

def issuesForDocument (tenantId documentId : UUID7) : RuleTx (List RiskIssue) :=
  read fun s => selectRows (fun i => i.tenantId == tenantId && i.documentId == documentId) s.issues

def saveIssue (issue : RiskIssue) : RuleTx Unit :=
  zoom issuesOf (insertRow .databaseError issue)

def isOpenRow (tenantId issueId : UUID7) (i : RiskIssue) : Bool :=
  i.tenantId == tenantId && i.id == issueId && i.status == .opened

def RiskIssue.markStale (now : Time) (i : RiskIssue) : RiskIssue :=
  {i with status := .stale, disposedAt := some now}

def markOpenIssueStale (tenantId issueId : UUID7) (now : Time) : RuleTx Bool := do
  let n ← zoom issuesOf (updateRows .databaseError (isOpenRow tenantId issueId)
    (RiskIssue.markStale now))
  pure (n == 1)

/-- `re.compile`, and `search` of the compiled pattern with the text of group 0. -/
abbrev Compiler : Type := String → Option (String → Option String)

/-- `_clamp` with `_MAX_MATCHED_TEXT_CHARS`. -/
def clamp (value : String) : String :=
  if value.length ≤ 400 then value else String.ofList (value.toList.take 400)

def newRiskIssue (id : UUID7) (pack : RulePack) (rule : RulePackRule)
    (tenantId documentId : UUID7) (p : ProvisionInput) (found : String) : RiskIssue where
  id := id
  tenantId := tenantId
  ruleId := rule.id
  packId := pack.id
  packVersion := pack.version
  documentId := documentId
  provisionNo := p.provisionNo
  matchedText := clamp found
  riskLevel := rule.riskLevel
  status := .opened
  evidenceLevel := "rule_based"
  dispositionReason := none
  raisedAt := none
  disposedAt := none
  ruleBased := rfl
  numbered := provision_numbered p

/-- One call: the provisions, the identifiers `new_uuid7` draws in turn, and the
time at which stale issues are marked. -/
structure RunChecks where
  tenantId : UUID7
  documentId : UUID7
  provisions : List ProvisionInput
  newId : ℕ → UUID7
  now : Time

def runProvision (c : RunChecks) (pack : RulePack) (rule : RulePackRule)
    (search : String → Option String) (issues : List RiskIssue) (p : ProvisionInput) :
    List RiskIssue :=
  match search p.text with
  | none => issues
  | some found =>
    issues++[newRiskIssue (c.newId issues.length) pack rule c.tenantId c.documentId p found]

def runRule (compile : Compiler) (c : RunChecks) (pack : RulePack) (issues : List RiskIssue)
    (rule : RulePackRule) : Except RuleCheckFailure (List RiskIssue) :=
  if rule.enabled = false then .ok issues
  else if rule.tenantId ≠ pack.tenantId ∨ rule.packId ≠ pack.id then
    .error (.valueError "rule engine cannot run a rule from another tenant or rule pack")
  else
    match compile rule.pattern with
    | none => .error (.valueError "rule pattern must be valid regex")
    | some search => .ok (c.provisions.foldl (runProvision c pack rule search) issues)

/-- `RuleEngine.run` -/
def runEngine (compile : Compiler) (c : RunChecks) (pack : RulePack) (rules : List RulePackRule) :
    Except RuleCheckFailure (List RiskIssue) := do
  Outcomes.require (c.tenantId = pack.tenantId)
    (.valueError "rule engine tenant does not match the rule pack tenant")
  Outcomes.require (pack.active = true) (.valueError "rule engine requires an active rule pack")
  rules.foldlM (runRule compile c pack) []

/-- What two issues must share to be the same match. -/
structure IssueKey where
  ruleId : UUID7
  provisionNo : String
  matchedText : String
deriving DecidableEq

def issueKey (i : RiskIssue) : IssueKey := ⟨i.ruleId,i.provisionNo,i.matchedText⟩

def openMatchExists (issues : List RiskIssue) (target : RiskIssue) : Bool :=
  issues.any fun i => i.status == .opened && i.ruleId == target.ruleId &&
    i.provisionNo == target.provisionNo && i.matchedText == target.matchedText

/-- Saves the candidates that no existing open issue matches. -/
def saveUnmatched (existing : List RiskIssue) : List RiskIssue → RuleTx (List RiskIssue)
  | [] => pure []
  | candidate::fresh =>
    if openMatchExists existing candidate then saveUnmatched existing fresh
    else do
      saveIssue candidate
      let created ← saveUnmatched existing fresh
      pure (candidate::created)

/-- Marks the open issues that no candidate matches. -/
def markUnmatched (c : RunChecks) (fresh : List RiskIssue) : List RiskIssue → RuleTx Unit
  | [] => pure ()
  | old::existing =>
    if old.status ≠ .opened ∨ openMatchExists fresh old = true then markUnmatched c fresh existing
    else do
      let _ ← markOpenIssueStale c.tenantId old.id c.now
      markUnmatched c fresh existing

def runChecks (compile : Compiler) (c : RunChecks) : RuleTx (List RiskIssue) := do
  let found ← getActivePack c.tenantId
  let pack ← orFail (.valueError "no active rule pack for tenant") found
  let rules ← rulesForPack c.tenantId pack.id
  require (rules ≠ []) (.valueError "active rule pack has no enabled rules")
  let fresh ← ofExcept id (runEngine compile c pack rules)
  let existing ← issuesForDocument c.tenantId c.documentId
  let created ← saveUnmatched existing fresh
  markUnmatched c fresh existing
  pure created

def disposable (status : RiskIssueStatus) : Bool :=
  status == .accepted || status == .rejected || status == .modified

/-- `dispose_risk_issue`, whose result the service only checks. -/
def disposeRiskIssue (issue : RiskIssue) (status : RiskIssueStatus) (reason : String) :
    Except RuleCheckFailure Unit := do
  Outcomes.require (issue.status = .opened) (.valueError "only open risk issues can be disposed")
  Outcomes.require (disposable status = true)
    (.valueError "disposition must accept, reject or modify the issue")
  Outcomes.require (strip reason.toList ≠ []) (.valueError "disposition reason is required")

def RiskIssue.dispose (status : RiskIssueStatus) (reason : String) (now : Time) (i : RiskIssue) :
    RiskIssue :=
  {i with status := status, dispositionReason := some reason, disposedAt := some now}

def disposeIssue (tenantId issueId : UUID7) (status : RiskIssueStatus) (reason : String)
    (now : Time) : RuleTx Bool := do
  require (disposable status = true)
    (.rulePackError "issue disposition must accept, reject or modify")
  let n ← zoom issuesOf (updateRows .databaseError (isOpenRow tenantId issueId)
    (RiskIssue.dispose status reason now))
  pure (n == 1)

def dispose (tenantId issueId : UUID7) (status : RiskIssueStatus) (reason : String) (now : Time) :
    RuleTx Bool := do
  let found ← findIssue tenantId issueId
  match found with
  | none => pure false
  | some issue => do
    ofExcept id (disposeRiskIssue issue status reason)
    disposeIssue tenantId issueId status reason now

end LawyerAgent.RuleChecks
