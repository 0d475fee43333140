import LawyerAgent.CanonicalJson
import LawyerAgent.ContractReviewWorkflow
import LawyerAgent.Relational.Run

/-!
# Pages of a review

Whatever the model answers, the pages taken go through the batches in order,
keep one issue for each key, and leave the issues of a repair as they were
but for the place of their text.
-/

set_option autoImplicit false

namespace LawyerAgent.ContractReviewPages
open Relational Common ContractReviewContracts
open ContractReviewWorkflow

theorem range_slices {α : Type} (size : ℕ) (items : List α) (k : ℕ) :
    ((List.range k).map fun i => (items.drop (i*size)).take size).flatten =
      items.take (k*size) := by
  induction k with
  | zero => simp
  | succ k ih =>
    rw [List.range_succ,List.map_append,List.flatten_append,ih,Nat.succ_mul,List.take_add]
    simp

theorem slices_flatten {α : Type} {size : ℕ} (hsize : 0 < size) (items : List α) :
    (slices size items).flatten = items := by
  rw [slices,range_slices]
  refine List.take_of_length_le ?_
  have hdiv := Nat.div_add_mod' (items.length+size-1) size
  have hmod := Nat.mod_lt (items.length+size-1) hsize
  omega

theorem slices_nil {α : Type} : slices 96 ([] : List α) = [] := by simp [slices]

/-- The part of the state that decides what is reviewed. -/
structure Progress where
  batches : List (List String)
  batchIndex : ℕ
  cachedIssues : List RiskIssueDraft
  candidate : Option ReviewCandidate
  repairChunks : List (List RiskIssueDraft)
  repairIndex : ℕ
  repairedIssues : List RiskIssueDraft
  gateRepairs : ℕ

def progress (st : RunState) : Progress where
  batches := st.batches
  batchIndex := st.batchIndex
  cachedIssues := st.cachedIssues
  candidate := st.candidate
  repairChunks := st.repairChunks
  repairIndex := st.repairIndex
  repairedIssues := st.repairedIssues
  gateRepairs := st.gateRepairs

def body (i : RiskIssueDraft) : IssueBody := i.value.toIssueBody

/-- A candidate of all batches: the cached issues, or their repair. -/
structure Drafted (p : Progress) (c : ReviewCandidate) : Prop where
  reviewed : c.value.reviewedBlockIds = p.batches.flatten
  covered : p.batchIndex = p.batches.length
  bodies : c.value.issues.map body = p.cachedIssues.map body
  untouched : p.gateRepairs = 0 → c.value.issues = p.cachedIssues

/-- Every accepted page of the draft, in order. -/
def drafting (p : AcceptedPage) : Bool := !p.repair

def ending (p : AcceptedPage) : Bool := !p.repair && p.complete

structure Repairing (p : Progress) : Prop where
  opened : p.gateRepairs ≠ 0
  covered : p.batchIndex = p.batches.length
  chunks : p.repairChunks.flatten.map body = p.cachedIssues.map body
  repaired : p.repairedIssues.map body = (p.repairChunks.take p.repairIndex).flatten.map body

structure ProgressSound (blocks : List String) (pages : List AcceptedPage) (p : Progress) :
    Prop where
  blocks : p.batches = slices 96 blocks
  index : p.batchIndex ≤ p.batches.length
  keys : (p.cachedIssues.map issueKey).Nodup
  taken : (pages.filter drafting).flatMap AcceptedPage.issues = p.cachedIssues
  completed : (pages.filter ending).map AcceptedPage.place = List.range p.batchIndex
  within : ∀ q ∈ pages, q.repair = false →
    ∃ batch, p.batches[q.place]? = some batch ∧ ∀ i ∈ q.issues, i.value.blockId ∈ batch
  candidate : ∀ c, p.candidate = some c → Drafted p c
  repairing : p.repairChunks ≠ [] → Repairing p
  unopened : p.repairChunks = [] → p.repairIndex = 0 ∧ p.repairedIssues = []

theorem newIssues_sub {seen : List IssueKey} {issues : List RiskIssueDraft}
    {i : RiskIssueDraft} (h : i ∈ newIssues seen issues) : i ∈ issues := by
  induction issues generalizing seen with
  | nil => cases h
  | cons j issues ih =>
    unfold newIssues at h
    split at h
    · exact List.mem_cons_of_mem _ (ih h)
    · rcases List.mem_cons.mp h with rfl | h
      · exact List.mem_cons_self
      · exact List.mem_cons_of_mem _ (ih h)

theorem newIssues_keys (seen : List IssueKey) (issues : List RiskIssueDraft) :
    ((newIssues seen issues).map issueKey).Nodup ∧
    ∀ i ∈ newIssues seen issues, issueKey i ∉ seen := by
  induction issues generalizing seen with
  | nil => exact ⟨List.nodup_nil,fun i hi => by cases hi⟩
  | cons j issues ih =>
    unfold newIssues
    split
    · exact ih seen
    · rename_i hj
      obtain ⟨hnodup,hfresh⟩ := ih (issueKey j::seen)
      constructor
      · rw [List.map_cons,List.nodup_cons]
        refine ⟨fun hmem => ?_,hnodup⟩
        obtain ⟨i,hi,hkey⟩ := List.mem_map.mp hmem
        exact hfresh i hi (hkey ▸ List.mem_cons_self)
      · intro i hi
        rcases List.mem_cons.mp hi with rfl | hi
        · exact hj
        · exact fun hseen => hfresh i hi (List.mem_cons_of_mem _ hseen)

theorem appended_keys {cached issues : List RiskIssueDraft}
    (h : (cached.map issueKey).Nodup) :
    ((cached++newIssues (cached.map issueKey) issues).map issueKey).Nodup := by
  obtain ⟨hnodup,hfresh⟩ := newIssues_keys (cached.map issueKey) issues
  rw [List.map_append,List.nodup_append]
  refine ⟨h,hnodup,fun a ha b hb hab => ?_⟩
  obtain ⟨i,hi,rfl⟩ := List.mem_map.mp hb
  exact hfresh i hi (hab ▸ ha)

/-- What an outcome reports as taken. -/
def Accepted.taken : Accepted → List AcceptedPage
  | .page p _ => [p]
  | .invalid _ taken => taken.toList
  | .failed _ => []

/-- The progress after a page, and the candidates it leaves standing. -/
structure PageKept (blocks : List String) (pages : List AcceptedPage) (st : RunState)
    (q : RunState × Accepted) : Prop where
  sound : ProgressSound blocks (pages++Accepted.taken q.2) (progress q.1)
  drafted : ∀ c, Drafted (progress st) c → Drafted (progress q.1) c
  budget : q.1.budget = st.budget

variable {blocks : List String} {pages : List AcceptedPage} {st : RunState}

theorem pageKept_same (h : ProgressSound blocks pages (progress st)) {out : Accepted}
    (hout : Accepted.taken out = []) : PageKept blocks pages st (st,out) := by
  refine ⟨?_,fun c hc => hc,rfl⟩
  rw [hout,List.append_nil]
  exact h

theorem completeCandidate_kept {taken : RunState} {reviewed : List String}
    {issues : List RiskIssueDraft} {p : AcceptedPage}
    (h : ProgressSound blocks (pages++[p]) (progress taken))
    (hdrafted : ∀ c, Drafted (progress st) c → Drafted (progress taken) c)
    (hnew : ∀ c : ReviewCandidate, c.value.reviewedBlockIds = reviewed →
      c.value.issues = issues → Drafted (progress taken) c)
    (hbudget : taken.budget = st.budget) :
    PageKept blocks pages st (completeCandidate taken reviewed issues p) := by
  unfold completeCandidate
  split
  · exact ⟨h,hdrafted,hbudget⟩
  · rename_i c hc
    have hvalue := postInit_ok hc
    have hkeep : ∀ x, Drafted (progress taken) x →
        Drafted (progress {taken with candidate := some c}) x :=
      fun x hx => ⟨hx.reviewed,hx.covered,hx.bodies,hx.untouched⟩
    refine ⟨⟨h.blocks,h.index,h.keys,h.taken,h.completed,h.within,?_,?_,h.unopened⟩,
      fun x hx => hkeep x (hdrafted x hx),hbudget⟩
    · rintro x ⟨⟩
      exact hkeep c (hnew c (by rw [hvalue]) (by rw [hvalue]))
    · intro hne
      obtain ⟨hopened,hcovered,hchunks,hrepaired⟩ := h.repairing hne
      exact ⟨hopened,hcovered,hchunks,hrepaired⟩

theorem acceptBatch_kept (h : ProgressSound blocks pages (progress st))
    (hchunks : st.repairChunks = []) {focus : List String}
    (hfocus : st.batches[st.batchIndex]? = some focus) {page : BatchReview}
    (hpage : ∀ i ∈ page.issues, i.value.blockId ∈ focus) :
    PageKept blocks pages st (acceptBatch st focus page) := by
  have hlt : st.batchIndex < st.batches.length := (List.getElem?_eq_some_iff.mp hfocus).1
  -- a state that still reads a batch has no candidate yet
  have hnone : ∀ c, ¬Drafted (progress st) c := fun c hc => by
    have hcovered : st.batchIndex = st.batches.length := hc.covered
    omega
  unfold acceptBatch
  simp only
  split
  · exact pageKept_same h rfl
  split
  · exact pageKept_same h rfl
  generalize hfresh : newIssues (st.cachedIssues.map issueKey) page.issues = fresh
  have hkeys : ((st.cachedIssues++fresh).map issueKey).Nodup := hfresh ▸ appended_keys h.keys
  have hmem : ∀ i ∈ fresh, i.value.blockId ∈ focus := fun i hi =>
    hpage i (newIssues_sub (hfresh ▸ hi))
  have hsound : ProgressSound blocks
      (pages++[⟨false,st.batchIndex,focus,page.batchComplete,fresh⟩])
      (progress (st.takePage page.batchComplete fresh)) := by
    refine ⟨h.blocks,?_,hkeys,?_,?_,?_,?_,fun hne => absurd hchunks hne,h.unopened⟩
    · simp only [progress,RunState.takePage]
      split <;> omega
    · rw [List.filter_append,List.flatMap_append,h.taken]
      simp [progress,RunState.takePage,drafting]
    · have hcompleted : (pages.filter ending).map AcceptedPage.place =
          List.range st.batchIndex := h.completed
      rw [List.filter_append,List.map_append,hcompleted]
      cases page.batchComplete with
      | true => simp [progress,RunState.takePage,ending,List.range_succ]
      | false => simp [progress,RunState.takePage,ending]
    · intro q hq hrepair
      rcases List.mem_append.mp hq with hq | hq
      · exact h.within q hq hrepair
      · obtain rfl := List.mem_singleton.mp hq
        exact ⟨focus,hfocus,hmem⟩
    · intro c hc
      exact absurd (h.candidate c hc) (hnone c)
  have hdrafted : ∀ c, Drafted (progress st) c →
      Drafted (progress (st.takePage page.batchComplete fresh)) c :=
    fun c hc => absurd hc (hnone c)
  split
  · rename_i hlast
    refine completeCandidate_kept hsound hdrafted ?_ rfl
    intro c hreviewed hissues
    exact ⟨hreviewed,hlast,by rw [hissues]; rfl,fun _ => hissues⟩
  · exact ⟨hsound,hdrafted,rfl⟩

theorem take_flatten_bodies {chunks : List (List RiskIssueDraft)} {k : ℕ}
    {chunk : List RiskIssueDraft} (hchunk : chunks[k]? = some chunk) :
    (chunks.take (k+1)).flatten.map body =
      (chunks.take k).flatten.map body++chunk.map body := by
  rw [List.take_add_one,hchunk]
  simp

theorem acceptRepair_kept (h : ProgressSound blocks pages (progress st))
    (hchunks : st.repairChunks ≠ []) {chunk : List RiskIssueDraft}
    (hchunk : st.repairChunks[st.repairIndex]? = some chunk) (focus : List String)
    (page : BatchReview) : PageKept blocks pages st (acceptRepair st focus page) := by
  have hrepairing := h.repairing hchunks
  unfold acceptRepair
  simp only [hchunk,Option.getD_some]
  split
  · exact pageKept_same h rfl
  rename_i haccept
  have hbodies : page.issues.map body = chunk.map body := by
    simp only [Bool.or_eq_true,Bool.not_eq_true',decide_eq_false_iff_not,not_or,not_not] at haccept
    exact haccept.2
  have hrepaired : (st.repairedIssues++page.issues).map body =
      (st.repairChunks.take (st.repairIndex+1)).flatten.map body := by
    rw [List.map_append,take_flatten_bodies hchunk,hbodies]
    exact congrArg (·++chunk.map body) hrepairing.repaired
  have hkeep : ∀ c, Drafted (progress st) c →
      Drafted (progress (st.takeRepair page.issues)) c :=
    fun c hc => ⟨hc.reviewed,hc.covered,hc.bodies,hc.untouched⟩
  have hsound : ∀ taken, (∀ q ∈ taken, q.repair = true) → ProgressSound blocks (pages++taken)
      (progress (st.takeRepair page.issues)) := by
    intro taken htaken
    have hdrafting : taken.filter drafting = [] :=
      List.filter_eq_nil_iff.mpr fun q hq => by simp [drafting,htaken q hq]
    have hending : taken.filter ending = [] :=
      List.filter_eq_nil_iff.mpr fun q hq => by simp [ending,htaken q hq]
    refine ⟨h.blocks,h.index,h.keys,?_,?_,?_,fun c hc => hkeep c (h.candidate c hc),fun _ =>
      ⟨hrepairing.opened,hrepairing.covered,hrepairing.chunks,hrepaired⟩,
      fun hnil => absurd hnil hchunks⟩
    · rw [List.filter_append,hdrafting,List.append_nil]
      exact h.taken
    · rw [List.filter_append,hending,List.append_nil]
      exact h.completed
    · intro q hq hrepair
      rcases List.mem_append.mp hq with hq | hq
      · exact h.within q hq hrepair
      · rw [htaken q hq] at hrepair
        cases hrepair
  have hone : ∀ q ∈ [(⟨true,st.repairIndex,focus,true,page.issues⟩ : AcceptedPage)],
      q.repair = true := fun q hq => by rw [List.mem_singleton.mp hq]
  split
  · rename_i hlast
    cases hcandidate : (st.takeRepair page.issues).candidate with
    | none => exact ⟨hsound [] (by simp),hkeep,rfl⟩
    | some c =>
      refine completeCandidate_kept (hsound _ hone) hkeep ?_ rfl
      intro x hreviewed hissues
      have hc := h.candidate c hcandidate
      refine ⟨hreviewed.trans hc.reviewed,hc.covered,?_,fun hzero =>
        absurd hzero hrepairing.opened⟩
      have hall : st.repairIndex+1 = st.repairChunks.length := hlast
      rw [hissues]
      refine hrepaired.trans ?_
      rw [hall,List.take_length]
      exact hrepairing.chunks
  · exact ⟨hsound _ hone,hkeep,rfl⟩

theorem acceptPage_kept (d : OutputDecoder) (scope : ReviewScope)
    (h : ProgressSound blocks pages (progress st)) (payload : Json) :
    PageKept blocks pages st (acceptPage d scope st payload) := by
  unfold acceptPage
  cases hidentity : pageIdentity scope st with
  | none => exact pageKept_same h rfl
  | some identity =>
    obtain ⟨focus,batchId⟩ := identity
    simp only
    split
    · exact pageKept_same h rfl
    split
    · exact pageKept_same h rfl
    rename_i page hread houtside
    unfold pageIdentity at hidentity
    by_cases hchunks : st.repairChunks.isEmpty = true
    · rw [if_pos hchunks] at hidentity ⊢
      obtain ⟨batch,hbatch,hsame⟩ := Option.map_eq_some_iff.mp hidentity
      obtain ⟨rfl,-⟩ := Prod.mk.inj hsame
      refine acceptBatch_kept h (List.isEmpty_iff.mp hchunks) hbatch fun i hi => ?_
      simp only [List.any_eq_true,Bool.not_eq_true',not_exists,not_and,
        Bool.not_eq_false,List.contains_iff_mem] at houtside
      exact houtside i hi
    · rw [if_neg hchunks] at hidentity ⊢
      obtain ⟨chunk,hchunk,-⟩ := Option.map_eq_some_iff.mp hidentity
      exact acceptRepair_kept h (fun hnil => hchunks (by simp [hnil])) hchunk focus page

/-- The stages a review may be in between its first step and a passed gate. -/
def Quiet : Stage → Prop
  | .newUserMsg | .persistReview | .returned _ => False
  | _ => True

structure ReplyKept (blocks : List String) (pages : List AcceptedPage) (st : RunState)
    (q : RunState × Stage × Option AcceptedPage) : Prop where
  sound : ProgressSound blocks (pages++q.2.2.toList) (progress q.1)
  drafted : ∀ c, Drafted (progress st) c → Drafted (progress q.1) c
  budget : q.1.budget = st.budget
  quiet : Quiet q.2.1

theorem replyKept_same (h : ProgressSound blocks pages (progress st)) {st' : RunState}
    {stage : Stage} (hprogress : progress st' = progress st) (hbudget : st'.budget = st.budget)
    (hstage : Quiet stage) : ReplyKept blocks pages st (st',stage,none) := by
  refine ⟨?_,fun c hc => hprogress ▸ hc,hbudget,hstage⟩
  simp only [Option.toList_none,List.append_nil]
  exact hprogress ▸ h

theorem outputInvalid_kept (e : OutputError) (st : RunState) :
    progress (outputInvalid e st).1 = progress st ∧
    (outputInvalid e st).1.budget = st.budget ∧ Quiet (outputInvalid e st).2 := by
  unfold outputInvalid
  split
  · exact ⟨rfl,rfl,trivial⟩
  · exact ⟨rfl,rfl,trivial⟩

theorem handleResponse_kept (w : Workflow) (h : ProgressSound blocks pages (progress st))
    (text : List Char) : ReplyKept blocks pages st (handleResponse w st text) := by
  unfold handleResponse
  split
  · obtain ⟨hprogress,hbudget,hquiet⟩ := outputInvalid_kept .format st
    exact replyKept_same h hprogress hbudget hquiet
  · exact replyKept_same h rfl rfl trivial
  · rename_i payload _
    have hpage := acceptPage_kept w.decoder w.scope h payload
    generalize acceptPage w.decoder w.scope st payload = q at hpage
    obtain ⟨st',out⟩ := q
    cases out with
    | page p final =>
      refine ⟨hpage.sound,hpage.drafted,hpage.budget,?_⟩
      cases final <;> trivial
    | invalid e taken =>
      obtain ⟨hprogress,hbudget,hquiet⟩ := outputInvalid_kept e st'
      refine ⟨?_,fun c hc => ?_,hbudget.trans hpage.budget,hquiet⟩
      · simp only [hprogress]
        exact hpage.sound
      · simp only [hprogress]
        exact hpage.drafted c hc
    | failed code => exact ⟨hpage.sound,hpage.drafted,hpage.budget,trivial⟩

theorem handleReply_kept (w : Workflow) (h : ProgressSound blocks pages (progress st))
    (reply : ModelReply) : ReplyKept blocks pages st (handleReply w reply st) := by
  cases reply with
  | truncated =>
    simp only [handleReply]
    split
    · exact replyKept_same h rfl rfl trivial
    · exact replyKept_same h rfl rfl trivial
  | raised => exact replyKept_same h rfl rfl trivial
  | notText => exact replyKept_same h rfl rfl trivial
  | text response =>
    simp only [handleReply,handleText]
    have hformat : ReplyKept blocks pages st
        ((outputInvalid .format st).1,(outputInvalid .format st).2,none) := by
      obtain ⟨hprogress,hbudget,hquiet⟩ := outputInvalid_kept .format st
      exact replyKept_same h hprogress hbudget hquiet
    split
    · exact replyKept_same h rfl rfl trivial
    split
    · exact replyKept_same h rfl rfl trivial
    split
    · exact hformat
    · exact replyKept_same h rfl rfl trivial
    · exact handleResponse_kept w h _
    · exact replyKept_same h rfl rfl trivial
    · exact hformat

/-- The gate has passed the candidate with this result, and the scope fits. -/
def Passed (w : Workflow) (r : Review) (c : ReviewCandidate) (result : ReviewResult) : Prop :=
  (c,.ok result) ∈ r.verdicts ∧ result.documentVersionId = w.scope.documentVersionId ∧
  result.runId = w.scope.runId

structure Sound (w : Workflow) (blocks : List String) (r : Review) : Prop where
  progress : ProgressSound blocks r.pages (progress r.state)
  verdicts : ∀ v ∈ r.verdicts, Drafted (ContractReviewPages.progress r.state) v.1
  persisting : r.stage = .persistReview →
    ∃ c result, r.state.candidate = some c ∧ r.state.result = some result ∧ Passed w r c result
  saved : ∀ result ∈ r.saved, ∃ c, Passed w r c result
  once : r.saved = [] ∨ (∃ result, r.saved = [result]) ∧ ∃ result, r.stage = .returned result
  chats : r.chats ≤ r.state.budget.modelCalls
  calls : r.state.budget.modelCalls ≤ w.limits.maxSteps
  opened : r.stage ≠ .newUserMsg

theorem consume_ok {limits : RunLimits} {n m : ℕ} {b b' : ResearchBudget}
    (h : consume limits n m b = .ok b') :
    b'.modelCalls = b.modelCalls+n ∧ b'.modelCalls ≤ limits.maxSteps := by
  unfold consume at h
  split at h
  · cases h
  rename_i hmax
  split at h
  · cases h
  cases h
  exact ⟨rfl,Nat.not_lt.mp hmax⟩

section Runs

variable {w : Workflow} {r : Review}

theorem sound_unsaved (h : Sound w blocks r) (hstage : ∀ result, r.stage ≠ .returned result) :
    r.saved = [] := by
  rcases h.once with hnil | ⟨-,result,hresult⟩
  · exact hnil
  · exact absurd hresult (hstage result)

theorem next_sound (h : Sound w blocks r) (hunsaved : r.saved = []) {q : RunState × Stage}
    (hprogress : progress q.1 = progress r.state) (hchats : r.chats ≤ q.1.budget.modelCalls)
    (hcalls : q.1.budget.modelCalls ≤ w.limits.maxSteps) (hstage : Quiet q.2) :
    Sound w blocks (r.next q) := by
  obtain ⟨st,stage⟩ := q
  simp only at hprogress hstage
  refine ⟨?_,?_,?_,h.saved,Or.inl hunsaved,hchats,hcalls,?_⟩
  · simp only [Review.next,hprogress]
    exact h.progress
  · simp only [Review.next,hprogress]
    exact h.verdicts
  · rintro rfl
    cases hstage
  · rintro rfl
    cases hstage

theorem callTool_kept (answer : Port String) (st : RunState) :
    progress (callTool w answer st).1 = progress st ∧
    (callTool w answer st).1.budget = st.budget ∧ Quiet (callTool w answer st).2 := by
  unfold callTool
  simp only
  split
  · exact ⟨rfl,rfl,trivial⟩
  split
  · exact ⟨rfl,rfl,trivial⟩
  split
  · exact ⟨rfl,rfl,trivial⟩
  split
  · exact ⟨rfl,rfl,trivial⟩
  · exact ⟨rfl,rfl,trivial⟩

theorem handleToolCalls_sound (h : Sound w blocks r) (hunsaved : r.saved = []) (a : Answers) :
    Sound w blocks (r.next (handleToolCalls w a r.state)) := by
  unfold handleToolCalls
  split
  · obtain ⟨hprogress,hbudget,hquiet⟩ := callTool_kept (w := w) a.tool r.state
    exact next_sound h hunsaved hprogress (by rw [hbudget]; exact h.chats)
      (by rw [hbudget]; exact h.calls) hquiet
  split
  · exact next_sound h hunsaved rfl h.chats h.calls trivial
  · rename_i budget hbudget
    obtain ⟨hcalls,hmax⟩ := consume_ok hbudget
    obtain ⟨hprogress,hkept,hquiet⟩ :=
      callTool_kept (w := w) a.tool {r.state with budget := budget}
    refine next_sound h hunsaved hprogress ?_ ?_ hquiet
    · rw [hkept,hcalls]
      exact h.chats
    · rw [hkept]
      exact hmax

theorem prepareChatHistory_sound (h : Sound w blocks r) (hunsaved : r.saved = []) :
    Sound w blocks (r.next (prepareChatHistory w r.state)) := by
  have hsame : (prepareChatHistory w r.state).1 = r.state ∧
      Quiet (prepareChatHistory w r.state).2 := by
    unfold prepareChatHistory
    split
    · exact ⟨rfl,trivial⟩
    split
    · exact ⟨rfl,trivial⟩
    split
    · exact ⟨rfl,trivial⟩
    split
    · exact ⟨rfl,trivial⟩
    · exact ⟨rfl,trivial⟩
  obtain ⟨hstate,hquiet⟩ := hsame
  exact next_sound h hunsaved (by rw [hstate]) (by rw [hstate]; exact h.chats)
    (by rw [hstate]; exact h.calls) hquiet

theorem handleLlmInput_sound (h : Sound w blocks r) (hunsaved : r.saved = []) (a : Answers) :
    Sound w blocks (handleLlmInput w a r) := by
  unfold handleLlmInput
  split
  · exact next_sound h hunsaved rfl h.chats h.calls trivial
  rename_i budget hbudget
  obtain ⟨hcalls,hmax⟩ := consume_ok hbudget
  have hpaid : ProgressSound blocks r.pages
      (progress {r.state with
        budget := budget
        steps := r.state.steps+1}) := h.progress
  have hreply := handleReply_kept w hpaid a.reply
  generalize handleReply w a.reply {r.state with
      budget := budget
      steps := r.state.steps+1} = q at hreply
  obtain ⟨st,stage,taken⟩ := q
  have hpaidBudget : st.budget = budget := hreply.budget
  refine ⟨hreply.sound,fun v hv => hreply.drafted v.1 (h.verdicts v hv),?_,h.saved,
    Or.inl hunsaved,?_,?_,?_⟩
  · rintro rfl
    exact absurd hreply.quiet id
  · have hchats := h.chats
    simp only [hpaidBudget]
    omega
  · simp only [hpaidBudget]
    exact hmax
  · rintro rfl
    exact absurd hreply.quiet id

theorem repairChunksOf_flatten (c : ReviewCandidate) :
    (repairChunksOf c).flatten = c.value.issues ∧ repairChunksOf c ≠ [] := by
  unfold repairChunksOf
  by_cases hempty : c.value.issues.isEmpty = true
  · rw [if_pos hempty]
    exact ⟨by simp [List.isEmpty_iff.mp hempty],by simp⟩
  · rw [if_neg hempty]
    have hflatten := slices_flatten (by decide : 0 < 2) c.value.issues
    refine ⟨hflatten,fun hnil => hempty ?_⟩
    rw [hnil] at hflatten
    simp [← hflatten]

theorem opened_sound (h : ProgressSound blocks pages (progress st)) {c : ReviewCandidate}
    (hcandidate : st.candidate = some c) (hrepairs : st.gateRepairs < 1) (code : String) :
    ProgressSound blocks pages (progress (observe (.gate code) {st with
      gateRepairs := st.gateRepairs+1
      repairChunks := repairChunksOf c})) ∧
    ∀ x, Drafted (progress st) x → Drafted (progress (observe (.gate code) {st with
      gateRepairs := st.gateRepairs+1
      repairChunks := repairChunksOf c})) x := by
  obtain ⟨hflatten,hne⟩ := repairChunksOf_flatten c
  have hclosed : st.repairChunks = [] := by
    by_contra hopen
    have hzero : st.gateRepairs ≠ 0 := (h.repairing hopen).opened
    omega
  obtain ⟨hindex,hrepaired⟩ := h.unopened hclosed
  have hc := h.candidate c hcandidate
  have hkeep : ∀ x, Drafted (progress st) x → Drafted (progress (observe (.gate code) {st with
      gateRepairs := st.gateRepairs+1
      repairChunks := repairChunksOf c})) x :=
    fun x hx =>
      ⟨hx.reviewed,hx.covered,hx.bodies,fun hzero => absurd hzero (by simp [progress,observe])⟩
  refine ⟨⟨h.blocks,h.index,h.keys,h.taken,h.completed,h.within,
    fun x hx => hkeep x (h.candidate x hx),fun _ => ⟨?_,hc.covered,?_,?_⟩,
    fun hnil => absurd hnil hne⟩,hkeep⟩
  · simp [progress,observe]
  · simp only [progress,observe,hflatten]
    exact hc.bodies
  · simp only [progress] at hindex hrepaired
    simp [progress,observe,hindex,hrepaired]

theorem validateReview_sound (h : Sound w blocks r) (hunsaved : r.saved = []) (a : Answers) :
    Sound w blocks (validateReview w a r) := by
  unfold validateReview
  split
  · exact next_sound h hunsaved rfl h.chats h.calls trivial
  rename_i c hcandidate
  split
  · have hdrafted : Drafted (progress r.state) c := h.progress.candidate c hcandidate
    have hverdicts : ∀ v ∈ r.verdicts++[(c,a.gate)], Drafted (progress r.state) v.1 := by
      intro v hv
      rcases List.mem_append.mp hv with hv | hv
      · exact h.verdicts v hv
      · obtain rfl := List.mem_singleton.mp hv
        exact hdrafted
    have hsaved : ∀ result ∈ r.saved, False := fun result hresult => by
      rw [hunsaved] at hresult
      cases hresult
    have hraised : ∀ code, Sound w blocks
        {r.next (r.state,.raised code) with verdicts := r.verdicts++[(c,a.gate)]} := fun code =>
      ⟨h.progress,hverdicts,(fun hs => by cases hs),fun x hx => (hsaved x hx).elim,
        Or.inl hunsaved,h.chats,h.calls,fun hs => by cases hs⟩
    unfold gateAnswered
    split
    · split
      · rename_i code _ hopen
        simp only [Bool.and_eq_true,decide_eq_true_eq] at hopen
        obtain ⟨hsound,hkeep⟩ := opened_sound h.progress hcandidate hopen.2 code
        exact ⟨hsound,fun v hv => hkeep v.1 (hverdicts v hv),(fun hs => by cases hs),
          fun x hx => (hsaved x hx).elim,Or.inl hunsaved,h.chats,h.calls,fun hs => by cases hs⟩
      · exact hraised _
    · exact hraised _
    · rename_i result hgate
      split
      · exact hraised _
      · rename_i hscope
        simp only [ne_eq,not_or,not_not] at hscope
        refine ⟨h.progress,hverdicts,fun _ => ⟨c,result,hcandidate,rfl,?_,hscope.1,hscope.2⟩,
          fun x hx => (hsaved x hx).elim,Or.inl hunsaved,h.chats,h.calls,fun hs => by cases hs⟩
        exact List.mem_append_right _ (by simp [hgate])
  · exact next_sound h hunsaved rfl h.chats h.calls trivial

theorem persistReview_sound (h : Sound w blocks r) (hunsaved : r.saved = [])
    (hstage : r.stage = .persistReview) (a : Answers) : Sound w blocks (persistReview a r) := by
  obtain ⟨c,result,-,hresult,hpassed⟩ := h.persisting hstage
  unfold persistReview
  simp only [hresult]
  split
  · refine ⟨h.progress,h.verdicts,(fun hs => by cases hs),fun x hx => ?_,
      Or.inr ⟨⟨result,by simp [hunsaved]⟩,some result,rfl⟩,h.chats,h.calls,
      fun hs => by cases hs⟩
    rw [hunsaved] at hx
    obtain rfl := List.mem_singleton.mp hx
    exact ⟨c,hpassed⟩
  · exact next_sound h hunsaved rfl h.chats h.calls trivial

theorem step_sound (a : Answers) (r : Review) (h : Sound w blocks r) :
    Sound w blocks (reviewStep w a r) := by
  have hunsaved : (∀ result, r.stage ≠ .returned result) → r.saved = [] := sound_unsaved h
  unfold reviewStep
  cases hstage : r.stage with
  | newUserMsg => exact absurd hstage h.opened
  | prepareChatHistory => exact prepareChatHistory_sound h (hunsaved (by simp [hstage]))
  | handleLlmInput => exact handleLlmInput_sound h (hunsaved (by simp [hstage])) a
  | handleToolCalls => exact handleToolCalls_sound h (hunsaved (by simp [hstage])) a
  | validateReview => exact validateReview_sound h (hunsaved (by simp [hstage])) a
  | persistReview => exact persistReview_sound h (hunsaved (by simp [hstage])) hstage a
  | returned result => exact h
  | raised code => exact h

/-- The blocks of the contract, as the first step is told them. -/
def blocksOf (first : Answers) : List String :=
  match first.document with
  | .ok (_,blockIds) => blockIds
  | .error _ => []

theorem prepared_progress {st : RunState} (hbatches : st.batches = slices 96 blocks)
    (hprogress : progress st = progress {({} : RunState) with batches := st.batches}) :
    ProgressSound blocks [] (progress st) := by
  rw [hprogress]
  exact ⟨hbatches,Nat.zero_le _,List.nodup_nil,rfl,rfl,(fun q hq => by cases hq),
    (fun c hc => by cases hc),fun hne => absurd rfl hne,fun _ => ⟨rfl,rfl⟩⟩

theorem prepared_sound {st : RunState} {stage : Stage} (hbatches : st.batches = slices 96 blocks)
    (hprogress : progress st = progress {({} : RunState) with batches := st.batches})
    (hcalls : st.budget.modelCalls ≤ w.limits.maxSteps) (hopened : stage ≠ .newUserMsg)
    (hpersist : stage ≠ .persistReview) : Sound w blocks (({} : Review).next (st,stage)) :=
  ⟨prepared_progress hbatches hprogress,(fun v hv => by cases hv),
    fun hs => absurd hs hpersist,(fun x hx => by cases hx),Or.inl rfl,Nat.zero_le _,hcalls,
    hopened⟩

theorem first_sound (first : Answers) :
    Sound w (blocksOf first) (reviewStep w first {}) := by
  change Sound w (blocksOf first) (({} : Review).next (newUserMsg w first {}))
  unfold newUserMsg blocksOf
  cases first.document with
  | error e => exact prepared_sound slices_nil.symm rfl (Nat.zero_le _) (by simp) (by simp)
  | ok prepared =>
    obtain ⟨document,blockIds⟩ := prepared
    simp only
    split
    · rename_i hempty
      rw [List.isEmpty_iff.mp hempty]
      exact prepared_sound slices_nil.symm rfl (Nat.zero_le _) (by simp) (by simp)
    split
    · unfold research
      split
      · exact prepared_sound rfl rfl (Nat.zero_le _) (by simp) (by simp)
      · rename_i budget hbudget
        have hmax := (consume_ok hbudget).2
        split
        · exact prepared_sound rfl rfl hmax (by simp) (by simp)
        · exact prepared_sound rfl rfl hmax (by simp) (by simp)
        · exact prepared_sound rfl rfl hmax (by simp) (by simp)
    · exact prepared_sound rfl rfl (Nat.zero_le _) (by simp) (by simp)

end Runs

/-- The issues of the pages taken before any repair, in order. -/
def draftedIssues (r : Review) : List RiskIssueDraft :=
  (r.pages.filter drafting).flatMap AcceptedPage.issues

/-- What a candidate for persistence owes to the run: each batch ended once and
in order, each issue from a page of its own batch, one issue for each key
before the repair, and the repair's edits confined to the place of the text. -/
structure Reviewed (blocks : List String) (r : Review) (c : ReviewCandidate) : Prop where
  reviewed : c.value.reviewedBlockIds = blocks
  batches : (r.pages.filter ending).map AcceptedPage.place =
    List.range (slices 96 blocks).length
  within : ∀ p ∈ r.pages, p.repair = false →
    ∃ batch, (slices 96 blocks)[p.place]? = some batch ∧ ∀ i ∈ p.issues, i.value.blockId ∈ batch
  keys : ((draftedIssues r).map issueKey).Nodup
  bodies : c.value.issues.map body = (draftedIssues r).map body
  unrepaired : r.state.gateRepairs = 0 → c.value.issues = draftedIssues r

theorem reviewed_of {w : Workflow} {r : Review} (h : Sound w blocks r) {c : ReviewCandidate}
    (hc : Drafted (progress r.state) c) : Reviewed blocks r c := by
  have hdrafted : draftedIssues r = r.state.cachedIssues := h.progress.taken
  refine ⟨?_,?_,?_,hdrafted ▸ h.progress.keys,hdrafted ▸ hc.bodies,hdrafted ▸ hc.untouched⟩
  · rw [hc.reviewed,h.progress.blocks]
    exact slices_flatten (by decide) blocks
  · rw [h.progress.completed,hc.covered,h.progress.blocks]
  · intro p hp hrepair
    obtain ⟨batch,hbatch,hissues⟩ := h.progress.within p hp hrepair
    rw [h.progress.blocks] at hbatch
    exact ⟨batch,hbatch,hissues⟩

/-- Whatever is answered, in any run: what reaches persistence or is saved has
been reviewed and has passed the gate under its scope, at most one result is
saved, and the calls of the model stay within the budget. -/
theorem review_runs (w : Workflow) (first : Answers) (answers : List Answers) :
    let r := run (reviewStep w) (first::answers) {}
    (r.stage = .persistReview → ∃ c result, r.state.candidate = some c ∧
      r.state.result = some result ∧ Passed w r c result ∧ Reviewed (blocksOf first) r c) ∧
    (∀ result ∈ r.saved, ∃ c, Passed w r c result ∧ Reviewed (blocksOf first) r c) ∧
    r.saved.length ≤ 1 ∧
    r.chats ≤ r.state.budget.modelCalls ∧ r.state.budget.modelCalls ≤ w.limits.maxSteps := by
  have h : Sound w (blocksOf first) (run (reviewStep w) (first::answers) {}) :=
    run_invariant (fun a r hr => step_sound a r hr) answers _ (first_sound first)
  generalize run (reviewStep w) (first::answers) {} = r at h
  have hreviewed : ∀ c result, Passed w r c result → Reviewed (blocksOf first) r c :=
    fun c result hpassed => reviewed_of h (h.verdicts _ hpassed.1)
  refine ⟨fun hstage => ?_,fun result hresult => ?_,?_,h.chats,h.calls⟩
  · obtain ⟨c,result,hcandidate,hresult,hpassed⟩ := h.persisting hstage
    exact ⟨c,result,hcandidate,hresult,hpassed,hreviewed c result hpassed⟩
  · obtain ⟨c,hpassed⟩ := h.saved result hresult
    exact ⟨c,hpassed,hreviewed c result hpassed⟩
  · rcases h.once with hnil | ⟨⟨result,hone⟩,-⟩
    · simp [hnil]
    · simp [hone]

def sampleScope : ReviewScope := ⟨⟨0,1,0⟩,⟨0,2,0⟩,⟨0,3,0⟩,"doc-1"⟩

def issueFields (anchorId : String) (start stop : ℕ) : RiskIssueFields where
  blockId := "b1"
  category := .commercial
  severity := .low
  problem := "unclear"
  suggestion := "clarify"
  anchorId := some anchorId
  start := start
  stop := stop
  quote := "AB"

def firstIssue : RiskIssueDraft := ⟨issueFields "a1" 0 2,by decide⟩

def secondIssue : RiskIssueDraft := ⟨issueFields "a9" 2 4,by decide⟩

def issueJson (i : RiskIssueDraft) : Json :=
  .object [("block_id",.string i.value.blockId),
    ("anchor_id",.string (i.value.anchorId.getD "")),("start",.number i.value.start),
    ("end",.number i.value.stop),("quote",.string i.value.quote),
    ("category",.string "commercial"),("severity",.string "low"),
    ("problem",.string i.value.problem),("suggestion",.string i.value.suggestion)]

def pageJson (p : BatchReview) : Json :=
  .object [("reviewed_batch_id",.string p.reviewedBatchId),
    ("batch_complete",.bool p.batchComplete),("issues",.array (p.issues.map issueJson))]

/-- Two issues of one problem, the second with an anchor that does not exist. -/
def draftPage : BatchReview :=
  ⟨runText sampleScope++".0.0",true,[firstIssue,secondIssue],by simp⟩

/-- The repair moves the second issue to the anchor of the first. -/
def repairPage : BatchReview :=
  ⟨runText sampleScope++".repair.0",true,[firstIssue,firstIssue],by simp⟩

def pageText (p : BatchReview) : List Char := CanonicalJson.dumps (pageJson p)

def sampleDecoder : OutputDecoder where
  jsonLoads := fun text =>
    if text = pageText draftPage then .ok (pageJson draftPage)
    else if text = pageText repairPage then .ok (pageJson repairPage)
    else .error .valueError
  reactParse := fun _ => .error .valueError
  batchReview
    | .object (("reviewed_batch_id",.string receipt)::_) =>
      if receipt = draftPage.reviewedBatchId then .ok draftPage
      else if receipt = repairPage.reviewedBatchId then .ok repairPage
      else .error ["reviewed_batch_id:const"]
    | _ => .error ["response:model_type"]
  reviewCandidate := fun _ => .error ["response:model_type"]

def sampleWorkflow : Workflow :=
  ⟨sampleScope,{},false,true,sampleDecoder,fun _ => some []⟩

def sampleFirst : Answers := {document := .ok ("",["b1"])}

def sampleAnswers : List Answers :=
  [{},{reply := .text (pageText draftPage)},{gate := .error (some "anchor_mismatch")},
   {},{reply := .text (pageText repairPage)},
   {gate := .ok ⟨"doc-1",⟨0,3,0⟩,[firstIssue,firstIssue]⟩},{}]

/-- The repaired candidate passes the gate and is saved with one key twice. -/
theorem repair_joins_keys :
    (run (reviewStep sampleWorkflow) (sampleFirst::sampleAnswers) {}).saved.map (fun result =>
      decide (result.issues.map issueKey).Nodup) = [false] := by
  decide +kernel

theorem sample_reviewed : ∃ c result,
    Passed sampleWorkflow (run (reviewStep sampleWorkflow) (sampleFirst::sampleAnswers) {})
      c result ∧
    Reviewed ["b1"] (run (reviewStep sampleWorkflow) (sampleFirst::sampleAnswers) {}) c := by
  have hsaved : (run (reviewStep sampleWorkflow) (sampleFirst::sampleAnswers) {}).saved.length =
      1 := by decide +kernel
  obtain ⟨result,hresult⟩ := List.exists_mem_of_length_pos (hsaved ▸ Nat.one_pos)
  obtain ⟨c,hpassed,hreviewed⟩ :=
    (review_runs sampleWorkflow sampleFirst sampleAnswers).2.1 result hresult
  exact ⟨c,result,hpassed,hreviewed⟩

end LawyerAgent.ContractReviewPages
