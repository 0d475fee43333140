import LawyerAgent.Common

/-!
# Contracts of a review

The issues a model proposes, the page it returns them on and the candidate
the gate sees. The character pattern of an identifier is left to whatever
decodes a wire text.
-/

set_option autoImplicit false

namespace LawyerAgent.ContractReviewContracts
open Common

structure ReviewScope where
  tenantId : UUID7
  actorId : UUID7
  runId : UUID7
  documentVersionId : String
deriving DecidableEq

structure RunLimits where
  maxSteps : ℕ := 12
  maxToolCalls : ℕ := 16
  maxResponseBytes : ℕ := 65536
  maxContextBytes : ℕ := 262144

inductive IssueCategory where
  | wording
  | commercial
  | legal
deriving DecidableEq, Repr

inductive IssueSeverity where
  | low
  | medium
  | high
deriving DecidableEq, Repr

structure LegalPassageCitation where
  passageId : String
  documentId : String
  quote : String
deriving DecidableEq

structure IssueHighlight where
  blockId : String
  anchorId : String
  start : ℕ
  stop : ℕ
deriving DecidableEq

/-- What an issue says, apart from where its text stands. -/
structure IssueBody where
  blockId : String
  category : IssueCategory
  severity : IssueSeverity
  problem : String
  suggestion : String
  evidenceIds : List String := []
  evidencePassages : List LegalPassageCitation := []
  highlights : List IssueHighlight := []
  highlightsComplete : Bool := true
deriving DecidableEq

structure RiskIssueFields extends IssueBody where
  anchorId : Option String
  start : ℕ
  stop : ℕ
  quote : String
deriving DecidableEq

def identifierLength (s : String) : Bool := 1 ≤ s.length && s.length ≤ 160

def shortText (s : String) : Bool := 1 ≤ s.length && s.length ≤ 4000

def fieldLengths (i : RiskIssueFields) : Bool :=
  identifierLength i.blockId && i.anchorId.all identifierLength && shortText i.quote &&
  shortText i.problem && shortText i.suggestion && i.evidenceIds.length ≤ 10 &&
  i.evidenceIds.all identifierLength && i.evidencePassages.length ≤ 7 &&
  i.highlights.length ≤ 200

def firstHighlightMatches (i : RiskIssueFields) : Bool :=
  i.highlights.head?.all fun h =>
    h.blockId == i.blockId && some h.anchorId == i.anchorId && h.start == i.start &&
    h.stop == i.stop

def riskIssueChecks : Checks RiskIssueFields := fun i =>
  [(fieldLengths i,"string_too_long"),
   (i.start < i.stop,"invalid issue range"),
   (i.category ≠ .legal || !i.evidenceIds.isEmpty,"legal claims require evidence"),
   (i.evidencePassages.all (fun p => i.evidenceIds.contains p.documentId),
    "passage outside issue evidence"),
   (firstHighlightMatches i,"legacy anchor must match first highlight"),
   ((i.highlights.map IssueHighlight.anchorId).Nodup,"duplicate issue highlight")]

abbrev RiskIssueDraft : Type := Checked riskIssueChecks

structure BatchReview where
  reviewedBatchId : String
  batchComplete : Bool
  issues : List RiskIssueDraft
  bounded : issues.length ≤ 2

structure ReviewCandidateFields where
  reviewedBlockIds : List String
  issues : List RiskIssueDraft

def reviewCandidateChecks : Checks ReviewCandidateFields := fun c =>
  [(1 ≤ c.reviewedBlockIds.length,"too_short"),
   (c.reviewedBlockIds.length ≤ 2000,"too_long"),
   (c.reviewedBlockIds.all identifierLength,"string_too_long"),
   (c.issues.length ≤ 100,"too_long")]

abbrev ReviewCandidate : Type := Checked reviewCandidateChecks

structure ReviewResult where
  documentVersionId : String
  runId : UUID7
  issues : List RiskIssueDraft

end LawyerAgent.ContractReviewContracts
