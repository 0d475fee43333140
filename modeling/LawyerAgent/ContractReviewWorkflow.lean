import LawyerAgent.ContractReviewContracts
import LawyerAgent.Envelope
import LawyerAgent.PythonText

/-!
# Paged review of a contract

A review goes through its steps one at a time; what the model, the tools, the
gate and the store answer is given to each step from outside. The document is
read in batches of 96 blocks, a batch in pages of at most two issues; a
structural rejection by the gate opens one repair, in pages of at most two
issues again. The prompts stand behind a parameter of the workflow, and so do
the decoders of the model's text.
-/

set_option autoImplicit false

namespace LawyerAgent.ContractReviewWorkflow
open Common Envelope PythonText
open ContractReviewContracts

inductive OutputError where
  | validation (violations : List String)
  | format
  | coverage (missing : List String) (extra duplicates outside : ℕ)
  | page (code : String)

inductive Observation where
  | truncated
  | invalidOutput (e : OutputError)
  | tool (output : String)
  | gate (code : String)

inductive ReasoningStep where
  | action (name : String) (input : JsonObject)
  | observation (o : Observation)

structure ResearchBudget where
  modelCalls : ℕ := 0
  toolCalls : ℕ := 0

structure RunState where
  budget : ResearchBudget := {}
  document : String := ""
  reasoning : List ReasoningStep := []
  pending : Option (String × JsonObject) := none
  candidate : Option ReviewCandidate := none
  result : Option ReviewResult := none
  researchEvidence : Option (List String) := none
  steps : ℕ := 0
  toolCalls : ℕ := 0
  repairs : ℕ := 0
  gateRepairs : ℕ := 0
  truncationRepairs : ℕ := 0
  batches : List (List String) := []
  batchIndex : ℕ := 0
  reviewRound : ℕ := 0
  cachedIssues : List RiskIssueDraft := []
  repairChunks : List (List RiskIssueDraft) := []
  repairIndex : ℕ := 0
  repairedIssues : List RiskIssueDraft := []

/-- `[items[i:i + size] for i in range(0, len(items), size)]` -/
def slices {α : Type} (size : ℕ) (items : List α) : List (List α) :=
  (List.range ((items.length+size-1)/size)).map fun i => (items.drop (i*size)).take size

inductive Raised where
  | valueError
  | other

inductive Reasoning where
  | action (name : String) (input : JsonObject)
  | response (text : List Char)
  | other

/-- `json.loads`, the ReAct parser and the validation of the wire models. -/
structure OutputDecoder where
  jsonLoads : List Char → Except Raised Json
  reactParse : List Char → Except Raised Reasoning
  batchReview : Json → Except (List String) BatchReview
  reviewCandidate : Json → Except (List String) ReviewCandidate

def envelopeReasoning (response : List Char) : Json → Except Raised Reasoning
  | .object envelope =>
    if (envelope.map Prod.fst).contains "action" then
      if envelope.all fun field => field.1 == "action" || field.1 == "action_input" then
        match List.lookup "action" envelope, List.lookup "action_input" envelope with
        | some (.string name), some (.object input) => .ok (.action name input)
        | _, _ => .error .valueError
      else .error .valueError
    else .ok (.response response)
  | _ => .ok (.response response)

def readResponse (d : OutputDecoder) (response : List Char) : Except Raised Reasoning :=
  if (response.dropWhile isSpace).head? = some '{' then
    match d.jsonLoads response with
    | .error e => .error e
    | .ok envelope => envelopeReasoning response envelope
  else d.reactParse response

def runText (scope : ReviewScope) : String := String.ofList (uuidText scope.runId)

/-- The blocks of the current page and its receipt; `none` past the last page. -/
def pageIdentity (scope : ReviewScope) (st : RunState) : Option (List String × String) :=
  if st.repairChunks.isEmpty then
    st.batches[st.batchIndex]?.map fun batch =>
      (batch,runText scope++"."++toString st.batchIndex++"."++toString st.reviewRound)
  else
    st.repairChunks[st.repairIndex]?.map fun chunk =>
      let own := (chunk.map fun i => i.value.blockId).eraseDups
      (if own.isEmpty then st.batches.flatten else own,
        runText scope++".repair."++toString st.repairIndex)

structure IssueKey where
  blockId : String
  anchorId : Option String
  start : ℕ
  stop : ℕ
  problem : List Char
deriving DecidableEq

/-- `_issue_key`: the problem is compared without its blanks. -/
def issueKey (i : RiskIssueDraft) : IssueKey where
  blockId := i.value.blockId
  anchorId := i.value.anchorId
  start := i.value.start
  stop := i.value.stop
  problem := i.value.problem.toList.filter fun c => !isSpace c

def hasReceipt : Json → Bool
  | .object payload => (payload.map Prod.fst).contains "reviewed_batch_id"
  | _ => false

/-- `_BatchCoverageError` -/
def coverageError (focus : List String) (c : ReviewCandidate) : OutputError :=
  let received := c.value.reviewedBlockIds
  .coverage ((focus.eraseDups.filter fun b => !received.contains b).mergeSort (· ≤ ·))
    (received.eraseDups.filter fun b => !focus.contains b).length
    (received.length-received.eraseDups.length)
    (c.value.issues.countP fun i => !focus.contains i.value.blockId)

def coversFocus (focus reviewed : List String) : Bool :=
  reviewed.all (focus.contains ·) && focus.all (reviewed.contains ·) &&
  reviewed.length == focus.length

/-- The page of a payload; a payload without a receipt is a whole candidate. -/
def readPage (d : OutputDecoder) (focus : List String) (batchId : String) (payload : Json) :
    Except OutputError BatchReview :=
  if hasReceipt payload then
    match d.batchReview payload with
    | .error violations => .error (.validation violations)
    | .ok page =>
      if page.reviewedBatchId = batchId then .ok page else .error (.page "receipt_mismatch")
  else
    match d.reviewCandidate payload with
    | .error violations => .error (.validation violations)
    | .ok legacy =>
      if coversFocus focus legacy.value.reviewedBlockIds then
        if h : legacy.value.issues.length ≤ 2 then .ok ⟨batchId,true,legacy.value.issues,h⟩
        else .error (.validation ["issues:too_long"])
      else .error (coverageError focus legacy)

/-- What `_accept_page` has taken: the page's place and the issues kept. -/
structure AcceptedPage where
  repair : Bool
  place : ℕ
  focus : List String
  complete : Bool
  issues : List RiskIssueDraft

/-- An error may come after the page has been cached. -/
inductive Accepted where
  | page (p : AcceptedPage) (final : Bool)
  | invalid (e : OutputError) (taken : Option AcceptedPage)
  | failed (code : String)

def newIssues (seen : List IssueKey) : List RiskIssueDraft → List RiskIssueDraft
  | [] => []
  | i::issues =>
    if issueKey i ∈ seen then newIssues seen issues
    else i::newIssues (issueKey i::seen) issues

def RunState.continued (st : RunState) : RunState :=
  {st with
    reasoning := []
    repairs := 0
    truncationRepairs := 0}

def completeCandidate (st : RunState) (reviewed : List String) (issues : List RiskIssueDraft)
    (p : AcceptedPage) : RunState × Accepted :=
  match postInit reviewCandidateChecks ⟨reviewed,issues⟩ with
  | .error violation => (st,.invalid (.validation [violation]) (some p))
  | .ok c => ({st with candidate := some c},.page p true)

def RunState.takePage (st : RunState) (complete : Bool) (fresh : List RiskIssueDraft) :
    RunState :=
  {st with
    cachedIssues := st.cachedIssues++fresh
    reviewRound := if complete then 0 else st.reviewRound+1
    batchIndex := if complete then st.batchIndex+1 else st.batchIndex}

def RunState.takeRepair (st : RunState) (issues : List RiskIssueDraft) : RunState :=
  {st with
    repairedIssues := st.repairedIssues++issues
    repairIndex := st.repairIndex+1}

/-- The repair branch of `_accept_page`. -/
def acceptRepair (st : RunState) (focus : List String) (page : BatchReview) :
    RunState × Accepted :=
  let originals := st.repairChunks[st.repairIndex]?.getD []
  let unchanged := page.issues.map (fun i => i.value.toIssueBody) =
    originals.map fun i => i.value.toIssueBody
  if !page.batchComplete || !decide unchanged then
    (st,.invalid (.page "repair_changed_issue") none)
  else
    let taken := st.takeRepair page.issues
    let p : AcceptedPage := ⟨true,st.repairIndex,focus,true,page.issues⟩
    if taken.repairIndex = taken.repairChunks.length then
      match taken.candidate with
      | none => (taken,.failed "review_failed")
      | some c => completeCandidate taken c.value.reviewedBlockIds taken.repairedIssues p
    else (taken.continued,.page p false)

/-- The other branch: new issues are cached and a complete page ends its batch. -/
def acceptBatch (st : RunState) (focus : List String) (page : BatchReview) :
    RunState × Accepted :=
  let fresh := newIssues (st.cachedIssues.map issueKey) page.issues
  if !page.batchComplete && fresh.isEmpty then (st,.invalid (.page "no_new_issues") none)
  else if st.cachedIssues.length+fresh.length > 100 then
    (st,.failed "review_issue_limit_exceeded")
  else
    let taken := st.takePage page.batchComplete fresh
    let p : AcceptedPage := ⟨false,st.batchIndex,focus,page.batchComplete,fresh⟩
    if taken.batchIndex = taken.batches.length then
      completeCandidate taken taken.batches.flatten taken.cachedIssues p
    else (taken.continued,.page p false)

def acceptPage (d : OutputDecoder) (scope : ReviewScope) (st : RunState) (payload : Json) :
    RunState × Accepted :=
  match pageIdentity scope st with
  | none => (st,.failed "review_failed")
  | some (focus,batchId) =>
    match readPage d focus batchId payload with
    | .error e => (st,.invalid e none)
    | .ok page =>
      if page.issues.any fun i => !focus.contains i.value.blockId then
        (st,.invalid (.page "outside_batch") none)
      else if st.repairChunks.isEmpty then acceptBatch st focus page
      else acceptRepair st focus page

/-- A port raises a review error with its code, or any other exception. -/
abbrev Port (α : Type) : Type := Except (Option String) α

inductive ModelReply where
  | truncated
  | raised
  | notText
  | text (response : List Char)

inductive ResearchOutcome where
  | noEvidence
  | ready (evidenceIds : List String)

/-- What the research has asked of the budget, and what it returns. -/
structure ResearchAnswer where
  modelCalls : ℕ
  toolCalls : ℕ
  outcome : Port ResearchOutcome

/-- What the outside answers to the step that asks next. -/
structure Answers where
  document : Port (String × List String) := .error none
  research : ResearchAnswer := ⟨0,0,.error none⟩
  reply : ModelReply := .raised
  tool : Port String := .error none
  gate : Port ReviewResult := .error none
  stored : Bool := true

/-- `messages` renders the prompt of a state; `none` is an invalid role. -/
structure Workflow where
  scope : ReviewScope
  limits : RunLimits
  researching : Bool
  accountsForToolBudget : Bool
  decoder : OutputDecoder
  messages : RunState → Option (List String)

inductive Stage where
  | newUserMsg
  | prepareChatHistory
  | handleLlmInput
  | handleToolCalls
  | validateReview
  | persistReview
  | returned (result : Option ReviewResult)
  | raised (code : String)

def portCode (otherwise : String) : Option String → String
  | some code => code
  | none => otherwise

/-- `ResearchBudget.consume_model` and `consume_tool`, `n` and `m` times. -/
def consume (limits : RunLimits) (n m : ℕ) (b : ResearchBudget) : Except String ResearchBudget :=
  if limits.maxSteps < b.modelCalls+n then .error "step_limit_exceeded"
  else if limits.maxToolCalls < b.toolCalls+m then .error "tool_limit_exceeded"
  else .ok ⟨b.modelCalls+n,b.toolCalls+m⟩

section Steps

variable (w : Workflow)

/-- The research of `new_user_msg`. -/
def research (a : ResearchAnswer) (st : RunState) : RunState × Stage :=
  match consume w.limits a.modelCalls a.toolCalls st.budget with
  | .error code => (st,.raised code)
  | .ok budget =>
    match a.outcome with
    | .error e => ({st with budget := budget},.raised (portCode "legal_research_unavailable" e))
    | .ok .noEvidence => ({st with budget := budget},.returned none)
    | .ok (.ready evidenceIds) => ({st with
        budget := budget
        researchEvidence := some evidenceIds},.prepareChatHistory)

def newUserMsg (a : Answers) (st : RunState) : RunState × Stage :=
  match a.document with
  | .error e => (st,.raised (portCode "document_unavailable" e))
  | .ok (document,blockIds) =>
    if blockIds.isEmpty then (st,.raised "invalid_document_structure")
    else
      let prepared := {st with
        document := document
        batches := slices 96 blockIds}
      if w.researching then research w a.research prepared else (prepared,.prepareChatHistory)

def prepareChatHistory (st : RunState) : RunState × Stage :=
  if w.limits.maxSteps ≤ st.budget.modelCalls then (st,.raised "step_limit_exceeded")
  else
    match pageIdentity w.scope st with
    | none => (st,.raised "review_failed")
    | some _ =>
      match w.messages st with
      | none => (st,.raised "invalid_message_role")
      | some contents =>
        if w.limits.maxContextBytes < (contents.map String.utf8ByteSize).sum then
          (st,.raised "context_limit_exceeded")
        else (st,.handleLlmInput)

def observe (o : Observation) (st : RunState) : RunState :=
  {st with reasoning := st.reasoning++[.observation o]}

def outputInvalid (e : OutputError) (st : RunState) : RunState × Stage :=
  if 1 ≤ st.repairs then (st,.raised "model_output_invalid")
  else (observe (.invalidOutput e) {st with repairs := st.repairs+1},.prepareChatHistory)

def handleResponse (st : RunState) (text : List Char) :
    RunState × Stage × Option AcceptedPage :=
  match w.decoder.jsonLoads text with
  | .error .valueError => let (st,next) := outputInvalid .format st; (st,next,none)
  | .error .other => (st,.raised "review_failed",none)
  | .ok payload =>
    match acceptPage w.decoder w.scope st payload with
    | (st,.page p final) =>
      (st,if final then .validateReview else .prepareChatHistory,some p)
    | (st,.invalid e taken) => let (st,next) := outputInvalid e st; (st,next,taken)
    | (st,.failed code) => (st,.raised code,none)

def handleText (st : RunState) (response : List Char) : RunState × Stage × Option AcceptedPage :=
  if (strip response).isEmpty then (st,.raised "model_empty_response",none)
  else if w.limits.maxResponseBytes < (response.map Char.utf8Size).sum then
    (st,.raised "model_response_too_large",none)
  else
    match readResponse w.decoder response with
    | .error .valueError => let (st,next) := outputInvalid .format st; (st,next,none)
    | .error .other => (st,.raised "review_failed",none)
    | .ok (.response text) => handleResponse w st text
    | .ok (.action name input) => ({st with
        reasoning := st.reasoning++[.action name input]
        pending := some (name,input)},.handleToolCalls,none)
    | .ok .other => let (st,next) := outputInvalid .format st; (st,next,none)

/-- What becomes of the model's reply once the call is paid for. -/
def handleReply (reply : ModelReply) (st : RunState) :
    RunState × Stage × Option AcceptedPage :=
  match reply with
  | .truncated =>
    if 1 ≤ st.truncationRepairs then (st,.raised "model_output_truncated",none)
    else (observe .truncated {st with truncationRepairs := st.truncationRepairs+1},
      .prepareChatHistory,none)
  | .raised => (st,.raised "model_unavailable",none)
  | .notText => (st,.raised "model_empty_response",none)
  | .text response => handleText w st response

def hiddenTools : List String :=
  ["legal_search","legal_read","legal_search_documents","legal_read_document"]

def callTool (answer : Port String) (st : RunState) : RunState × Stage :=
  let counted := {st with toolCalls := st.toolCalls+1}
  match st.pending with
  | none => (counted,.raised "invalid_tool_call")
  | some (name,_) =>
    let called := {counted with pending := none}
    if w.researching && hiddenTools.contains name then (called,.raised "tool_not_allowed")
    else
      match answer with
      | .error e => (called,.raised (portCode "tool_failure" e))
      | .ok output =>
        if w.limits.maxResponseBytes < output.utf8ByteSize then
          (called,.raised "tool_result_too_large")
        else (observe (.tool output) called,.prepareChatHistory)

def handleToolCalls (a : Answers) (st : RunState) : RunState × Stage :=
  if w.accountsForToolBudget then callTool w a.tool st
  else
    match consume w.limits 0 1 st.budget with
    | .error code => (st,.raised code)
    | .ok budget => callTool w a.tool {st with budget := budget}

def evidenceAllowed (st : RunState) (c : ReviewCandidate) : Bool :=
  st.researchEvidence.all fun allowed =>
    c.value.issues.all fun i => i.value.evidenceIds.all (allowed.contains ·)

def structuralCodes : List String :=
  ["review_coverage_incomplete","quote_mismatch","anchor_mismatch"]

/-- The chunks of a repair; without issues there is one empty chunk. -/
def repairChunksOf (c : ReviewCandidate) : List (List RiskIssueDraft) :=
  if c.value.issues.isEmpty then [[]] else slices 2 c.value.issues

def gateAnswered (answer : Port ReviewResult) (st : RunState) (c : ReviewCandidate) :
    RunState × Stage :=
  match answer with
  | .error (some code) =>
    if structuralCodes.contains code && st.gateRepairs < 1 then
      (observe (.gate code) {st with
        gateRepairs := st.gateRepairs+1
        repairChunks := repairChunksOf c},.prepareChatHistory)
    else (st,.raised code)
  | .error none => (st,.raised "review_gate_failed")
  | .ok result =>
    if result.documentVersionId ≠ w.scope.documentVersionId ∨ result.runId ≠ w.scope.runId then
      (st,.raised "scope_mismatch")
    else ({st with result := some result},.persistReview)

end Steps

/-- A review with what it has done so far: the calls of its model, the pages
it has taken, the gate's verdicts and what was saved, each the latest last. -/
structure Review where
  state : RunState := {}
  stage : Stage := .newUserMsg
  chats : ℕ := 0
  pages : List AcceptedPage := []
  verdicts : List (ReviewCandidate × Port ReviewResult) := []
  saved : List ReviewResult := []

section Review

def Review.next (r : Review) (q : RunState × Stage) : Review :=
  {r with
    state := q.1
    stage := q.2}

def persistReview (a : Answers) (r : Review) : Review :=
  match r.state.result with
  | none => r.next (r.state,.raised "invalid_review")
  | some result =>
    if a.stored then {r.next (r.state,.returned (some result)) with
      saved := r.saved++[result]}
    else r.next (r.state,.raised "review_failed")

variable (w : Workflow)

def handleLlmInput (a : Answers) (r : Review) : Review :=
  match consume w.limits 1 0 r.state.budget with
  | .error code => r.next (r.state,.raised code)
  | .ok budget =>
    match handleReply w a.reply {r.state with
      budget := budget
      steps := r.state.steps+1} with
    | (st,stage,taken) => {r with
        state := st
        stage := stage
        chats := r.chats+1
        pages := r.pages++taken.toList}

def validateReview (a : Answers) (r : Review) : Review :=
  match r.state.candidate with
  | none => r.next (r.state,.raised "invalid_review")
  | some c =>
    if evidenceAllowed r.state c then
      {r.next (gateAnswered w a.gate r.state c) with verdicts := r.verdicts++[(c,a.gate)]}
    else r.next (r.state,.raised "research_evidence_not_allowed")

def reviewStep (a : Answers) (r : Review) : Review :=
  match r.stage with
  | .newUserMsg => r.next (newUserMsg w a r.state)
  | .prepareChatHistory => r.next (prepareChatHistory w r.state)
  | .handleLlmInput => handleLlmInput w a r
  | .handleToolCalls => r.next (handleToolCalls w a r.state)
  | .validateReview => validateReview w a r
  | .persistReview => persistReview a r
  | .returned _ => r
  | .raised _ => r

end Review

end LawyerAgent.ContractReviewWorkflow
