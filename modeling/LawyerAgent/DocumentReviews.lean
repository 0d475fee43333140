import LawyerAgent.MatterDocuments
import LawyerAgent.Relational.RowSessions

/-!
# Reviews of document versions

`review_document_version` checks the transition of the row it has read without
a lock and then updates the row under its key alone. Decisions on one version
therefore follow the transitions as long as each of them is written on the
pending row it has read. A submission may also be written on another row that
can be submitted.
-/

set_option autoImplicit false

namespace LawyerAgent.DocumentReviews
open Relational PythonText MatterDocuments

inductive ReviewStatus where
  | draft
  | pendingReview
  | changesRequested
  | approved
  | rejected
deriving DecidableEq

inductive ReviewDecision where
  | submit
  | approve
  | reject
  | requestChanges
deriving DecidableEq

inductive ReviewError where
  | invalidTransition (message : String)
  | invalidDecision (message : String)
  | targetNotFound (message : String)
deriving DecidableEq

structure ReviewedVersion extends DocumentVersion where
  reviewStatus : Option ReviewStatus
  reviewReason : Option String

def ReviewStatus.value : ReviewStatus → String
  | .draft => "draft"
  | .pendingReview => "pending_review"
  | .changesRequested => "changes_requested"
  | .approved => "approved"
  | .rejected => "rejected"

def ReviewDecision.value : ReviewDecision → String
  | .submit => "submit"
  | .approve => "approve"
  | .reject => "reject"
  | .requestChanges => "request_changes"

def uploadStatusValue : DocumentUploadStatus → String
  | .uploaded => "uploaded"
  | .validating => "validating"
  | .accepted => "accepted"
  | .needsReview => "needs_review"
  | .parsing => "parsing"
  | .ready => "ready"
  | .failed => "failed"

def currentText : Option ReviewStatus → String
  | none => "None"
  | some status => status.value

def submittable (current : Option ReviewStatus) : Bool :=
  current = none || current = some .draft || current = some .changesRequested

def pendingTarget (current : Option ReviewStatus) (target : ReviewStatus) (verb : String) :
    Except ReviewError ReviewStatus :=
  if current = some .pendingReview then .ok target
  else .error (.invalidTransition ("cannot "++verb++" from "++currentText current))

def reviewTargetStatus (current : Option ReviewStatus) :
    ReviewDecision → Except ReviewError ReviewStatus
  | .submit =>
    if submittable current then .ok .pendingReview
    else .error (.invalidTransition ("cannot submit for review from "++currentText current))
  | .approve => pendingTarget current .approved "approve"
  | .reject => pendingTarget current .rejected "reject"
  | .requestChanges => pendingTarget current .changesRequested "request changes"

def needsReason (decision : ReviewDecision) : Bool :=
  decision = .reject || decision = .requestChanges

def requireReviewReason (decision : ReviewDecision) (reason : Option String) :
    Except ReviewError Unit :=
  if needsReason decision && (reason.map stripString).getD "" = "" then
    .error (.invalidDecision (decision.value++" requires a non-blank reason"))
  else .ok ()

def storedReason (target : ReviewStatus) (reason : Option String) : Option String :=
  if target = .approved ∨ target = .pendingReview then none else reason.map stripString

def reviewValues (decision : ReviewDecision) (reason : Option String)
    (version : Option ReviewedVersion) : Except ReviewError (ReviewStatus × Option String) := do
  requireReviewReason decision reason
  match version with
  | none => .error (.targetNotFound "document version not found")
  | some version =>
    if version.uploadStatus = .accepted ∨ version.uploadStatus = .ready then
      let target ← reviewTargetStatus version.reviewStatus decision
      pure (target,storedReason target reason)
    else .error (.invalidTransition ("upload must be accepted or ready before review (current="++
      uploadStatusValue version.uploadStatus++")"))

/-- A call whose key has a completed reservation is a replay. -/
structure ReviewCall where
  decision : ReviewDecision
  reason : Option String
  replayed : Bool

def withReview (found : ReviewedVersion) (values : ReviewStatus × Option String) :
    ReviewedVersion :=
  {found with reviewStatus := some values.1, reviewReason := values.2}

/-- `apply_review`: an error ends the transaction, and a replay only reads. -/
def applyReview (q : ReviewCall) : RowTransaction ReviewedVersion where
  locking := false
  write read found :=
    if q.replayed then none
    else (reviewValues q.decision q.reason (some read)).toOption.map (withReview found)

abbrev ReviewWorld := RowWorld ReviewCall ReviewedVersion

abbrev ReviewChange := RowChange ReviewCall ReviewedVersion

def reviewStep : RowOp ReviewCall → ReviewWorld → ReviewWorld := rowStep applyReview

variable {q : ReviewCall} {read found row first : ReviewedVersion} {w : ReviewWorld}

variable {decision : ReviewDecision} {current : Option ReviewStatus}

theorem requireReviewReason_ok {reason : Option String} :
    requireReviewReason decision reason = .ok () ↔
      (needsReason decision = true → ∃ text, reason = some text ∧ stripString text ≠ "") := by
  unfold requireReviewReason
  cases hn : needsReason decision with
  | false => simp
  | true =>
    cases reason with
    | none => simp
    | some text => simp

theorem pendingTarget_ok {target status : ReviewStatus} {verb : String} :
    pendingTarget current target verb = .ok status ↔
      current = some .pendingReview ∧ target = status := by
  unfold pendingTarget
  split_ifs with h
  · simp [h]
  · simp [h]

theorem terminal_stuck {status : ReviewStatus}
    (h : reviewTargetStatus current decision = .ok status) :
    current ≠ some .approved ∧ current ≠ some .rejected := by
  cases decision with
  | submit =>
    unfold reviewTargetStatus at h
    split_ifs at h with hs
    constructor
    · rintro rfl
      cases hs
    · rintro rfl
      cases hs
  | approve => simp [(pendingTarget_ok.mp h).1]
  | reject => simp [(pendingTarget_ok.mp h).1]
  | requestChanges => simp [(pendingTarget_ok.mp h).1]

theorem applyReview_write (h : (applyReview q).write read found = some row) :
    q.replayed = false ∧ requireReviewReason q.decision q.reason = .ok () ∧
    ∃ status, reviewTargetStatus read.reviewStatus q.decision = .ok status ∧
      row = withReview found (status,storedReason status q.reason) := by
  simp only [applyReview] at h
  split_ifs at h with hr
  refine ⟨eq_false_of_ne_true hr,?_⟩
  obtain ⟨values,hvalues,rfl⟩ := Option.map_eq_some_iff.mp h
  unfold reviewValues at hvalues
  cases hreason : requireReviewReason q.decision q.reason with
  | error e => simp [hreason,bind,Except.bind,Except.toOption] at hvalues
  | ok _ =>
    refine ⟨rfl,?_⟩
    simp only [hreason,bind,Except.bind] at hvalues
    split_ifs at hvalues with hupload
    · cases htarget : reviewTargetStatus read.reviewStatus q.decision with
      | error e => simp [htarget,Except.toOption] at hvalues
      | ok status =>
        simp only [htarget,pure,Except.pure,Except.toOption,Option.some.injEq] at hvalues
        exact ⟨status,rfl,by rw [hvalues]⟩
    · cases hvalues

/-- The version has not changed since it was read, or it can be submitted as it is. -/
def undisturbed : WriteCondition ReviewCall ReviewedVersion := fun q seen _ n found =>
  seen = n ∨ (q.decision = .submit ∧ submittable found.reviewStatus = true)

instance (q : ReviewCall) (seen : ℕ) (read : ReviewedVersion) (n : ℕ) (found : ReviewedVersion) :
    Decidable (undisturbed q seen read n found) :=
  inferInstanceAs (Decidable (_ ∨ _))

/-- The change is a transition of the row it replaces, with the reason of its call. -/
structure Follows (c : ReviewChange) (status : ReviewStatus) : Prop where
  target : reviewTargetStatus c.before.reviewStatus c.call.decision = .ok status
  moved : c.after.reviewStatus = some status
  reason : c.after.reviewReason = storedReason status c.call.reason
  version : c.after.toDocumentVersion = c.before.toDocumentVersion
  given : needsReason c.call.decision = true →
    ∃ text, c.call.reason = some text ∧ stripString text ≠ "" ∧
      c.after.reviewReason = some (stripString text)

theorem storedReason_given {status : ReviewStatus}
    (h : reviewTargetStatus current decision = .ok status) (hn : needsReason decision = true)
    (reason : Option String) :
    storedReason status reason = reason.map stripString := by
  cases decision with
  | submit => cases hn
  | approve => cases hn
  | reject =>
    obtain ⟨-,rfl⟩ := pendingTarget_ok.mp h
    rfl
  | requestChanges =>
    obtain ⟨-,rfl⟩ := pendingTarget_ok.mp h
    rfl

theorem written_target {seen n : ℕ} (h : (applyReview q).write read found = some row)
    (hcond : undisturbed q seen read n found) (hread : seen = n → read = found) :
    ∃ status, reviewTargetStatus found.reviewStatus q.decision = .ok status ∧
      row = withReview found (status,storedReason status q.reason) := by
  obtain ⟨-,-,status,htarget,hrow⟩ := applyReview_write h
  rcases hcond with hseen | ⟨hsubmit,hfound⟩
  · rw [hread hseen] at htarget
    exact ⟨status,htarget,hrow⟩
  · rw [hsubmit,reviewTargetStatus] at htarget
    split_ifs at htarget
    refine ⟨status,?_,hrow⟩
    rw [hsubmit,reviewTargetStatus,if_pos hfound]
    exact htarget

theorem change_follows {k : ℕ} {c : ReviewChange} (hs : RowSound applyReview first w)
    (hm : RowMeets undisturbed w) (hc : w.changes[k]? = some c) : ∃ status, Follows c status := by
  obtain ⟨hwrite,hread⟩ := hs.changes k c hc
  obtain ⟨status,htarget,hrow⟩ := written_target hwrite (hm.changes k c hc) hread
  obtain ⟨-,hgiven,-⟩ := applyReview_write hwrite
  refine ⟨status,htarget,by rw [hrow]; rfl,by rw [hrow]; rfl,by rw [hrow]; rfl,?_⟩
  intro hn
  obtain ⟨text,htext,hblank⟩ := requireReviewReason_ok.mp hgiven hn
  refine ⟨text,htext,hblank,?_⟩
  rw [hrow]
  change storedReason status c.call.reason = _
  rw [storedReason_given htarget hn,htext]
  rfl

/-- A committed version in a terminal status stays as it is. -/
theorem terminal_kept (op : RowOp ReviewCall) (hs : RowSound applyReview first w)
    (hm : RowMeets undisturbed w)
    (hterminal : w.row.reviewStatus = some .approved ∨ w.row.reviewStatus = some .rejected) :
    (reviewStep op w).row = w.row := by
  have heffect := rowStep_effect applyReview op w
  change RowEffect applyReview w op (reviewStep op w) at heffect
  generalize reviewStep op w = w' at heffect
  cases heffect with
  | committed i call seen read row held =>
    have hwrite := hs.wrote i call seen read row held
    obtain ⟨status,htarget,-⟩ := written_target hwrite (hm.wrote i call seen read row held)
      (hs.seen i _ seen read held rfl).2
    have hstuck := terminal_stuck htarget
    rcases hterminal with h | h
    · exact absurd h hstuck.1
    · exact absurd h hstuck.2
  | unchanged => rfl
  | begun call => rfl
  | read i call held free => rfl
  | wrote i call seen read row held free write => rfl
  | ended op i call phase held => rfl

theorem run_terminal (later : List (RowOp ReviewCall)) (hs : RowSound applyReview first w)
    (hm : RowMeets undisturbed w)
    (hg : Along reviewStep (WritesMeet applyReview undisturbed) later w)
    (hterminal : w.row.reviewStatus = some .approved ∨ w.row.reviewStatus = some .rejected) :
    (run reviewStep later w).row = w.row := by
  induction later generalizing w with
  | nil => rfl
  | cons op later ih =>
    have hrow := terminal_kept op hs hm hterminal
    have hnext := step_meets op w hg.1 ⟨hs,hm⟩
    exact (ih hnext.1 hnext.2 hg.2 (hrow ▸ hterminal)).trans hrow

structure Reviewed (first : ReviewedVersion) (w : ReviewWorld) : Prop where
  transitions : ∀ c ∈ w.changes, ∃ status, Follows c status
  chained : Chained first w.changes w.row
  unchanged : w.changes = [] → w.row = first
  stored : ∀ c, w.changes.getLast? = some c → w.row = c.after
  /-- Two decisions that have both read the version before the other one was committed. -/
  once : ∀ (i j : ℕ) c d, w.changes[i]? = some c → w.changes[j]? = some d →
    c.call.decision ≠ .submit → d.call.decision ≠ .submit → c.seen ≤ j → d.seen ≤ i → i = j

theorem meets_reviewed (hs : RowSound applyReview first w) (hm : RowMeets undisturbed w) :
    Reviewed first w := by
  refine ⟨?_,hs.chained,?_,?_,?_⟩
  · intro c hc
    obtain ⟨k,hk⟩ := List.getElem?_of_mem hc
    exact change_follows hs hm hk
  · intro hnone
    have hchained := hs.chained
    rw [hnone] at hchained
    exact hchained
  · intro c hc
    exact chained_last hs.chained hc
  · intro i j c d hi hj hc hd hcj hdi
    have hread : ∀ (k : ℕ) e, w.changes[k]? = some e → e.call.decision ≠ .submit →
        e.seen = k := by
      intro k e hk he
      rcases hm.changes k e hk with hseen | ⟨hsubmit,-⟩
      · exact hseen
      · exact absurd hsubmit he
    have hi' := hread i c hi hc
    have hj' := hread j d hj hd
    omega

/-- In a run whose decisions are all written on the row they have read, the version follows
the transitions, a terminal status is kept for good, and the last review is the stored one. -/
theorem reviews_follow (first : ReviewedVersion) (earlier later : List (RowOp ReviewCall))
    (hg : Along reviewStep (WritesMeet applyReview undisturbed) (earlier++later)
      (RowWorld.start first)) :
    Reviewed first (run reviewStep (earlier++later) (RowWorld.start first)) ∧
    ((run reviewStep earlier (RowWorld.start first)).row.reviewStatus = some .approved ∨
      (run reviewStep earlier (RowWorld.start first)).row.reviewStatus = some .rejected →
      (run reviewStep (earlier++later) (RowWorld.start first)).row =
        (run reviewStep earlier (RowWorld.start first)).row) := by
  constructor
  · exact meets_reviewed (run_rowSound _ first) (run_meets _ first hg)
  · intro hterminal
    obtain ⟨hearlier,hlater⟩ := (along_append _ _ _ _ _).mp hg
    rw [run_append]
    exact run_terminal later (run_rowSound earlier first) (run_meets earlier first hearlier)
      hlater hterminal

def sampleVersion : ReviewedVersion where
  id := ⟨0,0,1⟩
  tenantId := ⟨0,0,2⟩
  documentId := ⟨0,0,3⟩
  versionNo := 1
  kind := .original
  objectKey := "lease.pdf"
  sha256 := 0
  uploadStatus := .ready
  fileName := "lease.pdf"
  mimeType := "application/pdf"
  sizeBytes := 1
  createdByUserId := ⟨0,0,4⟩
  createdByMembershipId := ⟨0,0,5⟩
  uploadedAt := 0
  reviewStatus := some .pendingReview
  reviewReason := none

def approval : ReviewCall := ⟨.approve,none,false⟩

def rejection : ReviewCall := ⟨.reject,some "expired",false⟩

theorem rejection_kept :
    Reviewed sampleVersion (run reviewStep ([.begin rejection,.read 0,.write 0,.commit 0]++
      [.begin approval,.read 1,.write 1,.commit 1]) (RowWorld.start sampleVersion)) ∧
    (run reviewStep ([.begin rejection,.read 0,.write 0,.commit 0]++
      [.begin approval,.read 1,.write 1,.commit 1]) (RowWorld.start sampleVersion)).row =
      withReview sampleVersion (.rejected,some "expired") := by
  have h := reviews_follow sampleVersion [.begin rejection,.read 0,.write 0,.commit 0]
    [.begin approval,.read 1,.write 1,.commit 1] (by decide)
  refine ⟨h.1,?_⟩
  rw [h.2 (Or.inr (by decide))]
  rfl

/-- Both reviewers read the pending version before either decision is committed. -/
def racingReviews : List (RowOp ReviewCall) :=
  [.begin approval,.begin rejection,.read 0,.read 1,.write 0,.commit 0,.write 1,.commit 1]

theorem racing_rejected :
    (run reviewStep racingReviews (RowWorld.start sampleVersion)).changes.map
      (fun c => (c.before.reviewStatus,c.after.reviewStatus)) =
        [(some .pendingReview,some .approved),(some .approved,some .rejected)] ∧
    ¬ Reviewed sampleVersion (run reviewStep racingReviews (RowWorld.start sampleVersion)) := by
  constructor
  · decide
  · intro h
    have honce := h.once 0 1 _ _ rfl rfl (by decide) (by decide)
    exact absurd (honce (by decide) (by decide)) (by decide)

end LawyerAgent.DocumentReviews
