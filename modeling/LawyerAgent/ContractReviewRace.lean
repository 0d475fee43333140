import LawyerAgent.ContractReviewRuns
import LawyerAgent.Relational.Evolution
import LawyerAgent.Relational.Run

/-!
# Races between review calls

Any number of calls are under way at once. A call starts with its reads, may
stop there, and proceeds with its statement at any later time; in between the
other calls and everything that is not a review go on. The log holds every
call that has returned, the latest first.
-/

set_option autoImplicit false

namespace LawyerAgent.ContractReviewRace
open Relational Common CanonicalJson IdentityTables
open SessionTables ContractReviewTables
open ContractReviewPayloads ContractReviewRuns
open TenantAuthorization (TenantActor)

/-- A call that has returned, with the statement it has written. -/
structure Returned where
  call : RunCall
  wrote : Option Statement
  record : Option RunRecord

structure ReviewWorld where
  db : ContractDatabase
  inFlight : List (Option (RunCall × Statement)) := []
  log : List Returned := []

inductive ReviewOp where
  | elsewhere (identity : Identity) (sessions : Table authSessions)
  | start (call : RunCall)
  | proceed (i : ℕ)
  | crash (i : ℕ)

section Steps

variable (sha256 : List UInt8 → Digest) (wire : WireModels)

def startStep (call : RunCall) (w : ReviewWorld) : ReviewWorld :=
  match beginCall sha256 wire call w.db with
  | .error _ => w
  | .ok (.answered record,_) => {w with log := ⟨call,none,call.returned record⟩::w.log}
  | .ok (.pending s,_) => {w with inFlight := w.inFlight++[some (call,s)]}

def proceedStep (i : ℕ) (w : ReviewWorld) : ReviewWorld :=
  match w.inFlight[i]? with
  | some (some (call,s)) =>
    match perform s w.db with
    | .error _ => {w with inFlight := w.inFlight.set i none}
    | .ok (record,db) => {w with
        db := db
        inFlight := w.inFlight.set i none
        log := ⟨call,some s,call.returned record⟩::w.log}
  | _ => w

def reviewStep : ReviewOp → ReviewWorld → ReviewWorld
  | .elsewhere identity sessions, w => {w with db := {w.db with
      identity := identity
      sessions := sessions}}
  | .start call, w => startStep sha256 wire call w
  | .proceed i, w => proceedStep i w
  | .crash i, w => {w with inFlight := w.inFlight.set i none}

end Steps

/-- The statement a call stops before. -/
inductive Shape (sha256 : List UInt8 → Digest) (wire : WireModels) : RunCall → Statement → Prop
  | create (actor : TenantActor) (request : CreateRequest) (newId : UUID7) (now : Time)
      (owner : Owner) : Shape sha256 wire (.create actor request newId now)
        (.insert (createModel sha256 owner request.stripped newId now))
  | attachPdf (actor : TenantActor) (runId : UUID7) (key digest : String) (size : ℤ) (now : Time)
      (pdf : Digest) (u : RunUpdate) (hid : u.runId = runId) (hpdf : fromHex digest = some pdf)
      (hchange : u.change = .attachPdf key pdf size) :
      Shape sha256 wire (.attachPdf actor runId key digest size now) (.update u)
  | claim (actor : TenantActor) (runId : UUID7) (token : String) (clock now : Time)
      (leaseHash : Digest) (u : RunUpdate) (hid : u.runId = runId)
      (hchange : u.change = .claim leaseHash (clock+seconds (15*60))) :
      Shape sha256 wire (.claim actor runId token clock now) (.update u)
  | finish (actor : TenantActor) (runId : UUID7) (withDraft : Bool)
      (result parsed manifest : JsonObject) (now : Time) (u : RunUpdate) (hid : u.runId = runId)
      (howner : u.owner.isSome = true)
      (hchecks : firstError (finishPayloadChecks wire result parsed manifest) = none)
      (hchange : u.change = .finish withDraft result parsed manifest) :
      Shape sha256 wire (.finish actor runId withDraft result parsed manifest now) (.update u)
  | fail (actor : TenantActor) (runId : UUID7) (code : String) (cancelled : Bool) (now : Time)
      (u : RunUpdate) (hid : u.runId = runId) (hchange : u.change = .fail code cancelled) :
      Shape sha256 wire (.fail actor runId code cancelled now) (.update u)
  | failOwned (lease : FailureLease) (code : String) (cancelled : Bool)
      (manifest : Option JsonObject) (now : Time) (u : RunUpdate) (hid : u.runId = lease.runId)
      (hchange : u.change = .failOwned code cancelled manifest) :
      Shape sha256 wire (.failOwned lease code cancelled manifest now) (.update u)

def Seen (runs : Table contractReviewRuns) : RunCall → Prop
  | .finish _ runId withDraft result parsed _ _ =>
    ∃ r ∈ runs, r.id = runId ∧ finishIdentityOk runId withDraft result parsed r = true
  | _ => True

variable {r : ContractReviewRunModel} {runId : UUID7} {record : Option RunRecord}
  {t : Table contractReviewRuns} {log : List Returned}

theorem isOwned_id {owner : Owner} (h : isOwned owner runId r = true) : r.id = runId := by
  simp only [isOwned,Bool.and_eq_true,beq_iff_eq] at h
  exact h.1.1.2

theorem transition_ok {actor : TenantActor} {change : RunChange} {now : Time}
    {replay validate : ContractReviewRunModel → Bool} {db db' : ContractDatabase} {b : Begun}
    (h : transition actor runId change now replay validate db = .ok (b,db')) :
    db' = db ∧ ∃ owner row, selectRow (isOwned owner runId) db.runs = some row ∧
      validate row = true ∧
      ((row.status = change.expected ∧ b = .pending (.update
        ⟨owner.tenantId,runId,row.version,change,now,some owner,none⟩)) ∨
      (replay row = true ∧ b = .answered (some (recordOf row)))) := by
  simp only [transition,authorize,owned,bind_ok,read_ok,orFail_ok,require_ok] at h
  obtain ⟨owner,_,⟨_,_,⟨-,rfl⟩,-,rfl⟩,row,_,⟨_,_,⟨rfl,rfl⟩,hrow,rfl⟩,_,_,⟨hvalid,rfl⟩,h⟩ := h
  split at h
  · rename_i hstatus
    obtain ⟨rfl,rfl⟩ := pure_ok.mp h
    exact ⟨rfl,owner,row,hrow,hvalid,Or.inl ⟨hstatus,rfl⟩⟩
  · simp only [bind_ok,require_ok,pure_ok] at h
    obtain ⟨_,_,⟨hreplay,rfl⟩,rfl,rfl⟩ := h
    exact ⟨rfl,owner,row,hrow,hvalid,Or.inr ⟨hreplay,rfl⟩⟩

section Calls

variable {sha256 : List UInt8 → Digest} {wire : WireModels}

/-- The reads of a call change nothing. What they leave to do is in the shape
of the call; a claim never answers without a statement. -/
theorem beginCall_ok {call : RunCall} {b : Begun} {db db' : ContractDatabase}
    (h : beginCall sha256 wire call db = .ok (b,db')) :
    db' = db ∧ (∀ s, b = .pending s → Shape sha256 wire call s ∧ Seen db.runs call) ∧
    (∀ record, b = .answered record → ∀ actor runId token clock now,
      call ≠ .claim actor runId token clock now) := by
  cases call with
  | create actor request newId now =>
    simp only [beginCall,create,authorize,bind_ok,read_ok,orFail_ok,require_ok] at h
    obtain ⟨_,_,⟨-,rfl⟩,owner,_,⟨_,_,⟨-,rfl⟩,-,rfl⟩,existing,_,⟨-,rfl⟩,h⟩ := h
    cases existing with
    | none =>
      obtain ⟨rfl,rfl⟩ := pure_ok.mp h
      refine ⟨rfl,?_,by simp⟩
      rintro s ⟨⟩
      exact ⟨.create actor request newId now owner,trivial⟩
    | some r =>
      simp only [bind_ok,require_ok,pure_ok] at h
      obtain ⟨_,_,⟨-,rfl⟩,rfl,rfl⟩ := h
      exact ⟨rfl,by simp,by simp⟩
  | attachPdf actor runId key digest size now =>
    simp only [beginCall,attachPdf,bind_ok,require_ok,orFail_ok] at h
    obtain ⟨_,_,⟨-,rfl⟩,pdf,_,⟨hpdf,rfl⟩,h⟩ := h
    obtain ⟨rfl,owner,row,hrow,-,⟨-,rfl⟩ | ⟨-,rfl⟩⟩ := transition_ok h
    · refine ⟨rfl,?_,by simp⟩
      rintro s ⟨⟩
      exact ⟨.attachPdf actor runId key digest size now pdf _ rfl hpdf rfl,trivial⟩
    · exact ⟨rfl,by simp,by simp⟩
  | claim actor runId token clock now =>
    simp only [beginCall,claim,bind_ok,orFail_ok] at h
    obtain ⟨leaseHash,_,⟨-,rfl⟩,h⟩ := h
    obtain ⟨rfl,owner,row,hrow,-,⟨-,rfl⟩ | ⟨hreplay,-⟩⟩ := transition_ok h
    · refine ⟨rfl,?_,by simp⟩
      rintro s ⟨⟩
      exact ⟨.claim actor runId token clock now leaseHash _ rfl rfl,trivial⟩
    · cases hreplay
  | finish actor runId withDraft result parsed manifest now =>
    simp only [beginCall,finish,bind_ok,ofExcept_ok] at h
    obtain ⟨_,_,⟨hchecks,rfl⟩,h⟩ := h
    have hnone : firstError (finishPayloadChecks wire result parsed manifest) = none := by
      split at hchecks
      · assumption
      · cases hchecks
    obtain ⟨rfl,owner,row,hrow,hvalid,⟨-,rfl⟩ | ⟨-,rfl⟩⟩ := transition_ok h
    · refine ⟨rfl,?_,by simp⟩
      rintro s ⟨⟩
      obtain ⟨hmem,howned⟩ := selectRow_some hrow
      exact ⟨.finish actor runId withDraft result parsed manifest now _ rfl rfl hnone rfl,
        row,hmem,isOwned_id howned,hvalid⟩
    · exact ⟨rfl,by simp,by simp⟩
  | fail actor runId code cancelled now =>
    simp only [beginCall,ContractReviewRuns.fail,bind_ok,require_ok] at h
    obtain ⟨_,_,⟨-,rfl⟩,h⟩ := h
    obtain ⟨rfl,owner,row,hrow,-,⟨-,rfl⟩ | ⟨-,rfl⟩⟩ := transition_ok h
    · refine ⟨rfl,?_,by simp⟩
      rintro s ⟨⟩
      exact ⟨.fail actor runId code cancelled now _ rfl rfl,trivial⟩
    · exact ⟨rfl,by simp,by simp⟩
  | failOwned lease code cancelled manifest now =>
    simp only [beginCall,failOwned,bind_ok,require_ok,read_ok,orFail_ok] at h
    obtain ⟨_,_,⟨-,rfl⟩,_,_,⟨-,rfl⟩,_,_,⟨-,rfl⟩,row,_,⟨-,rfl⟩,h⟩ := h
    split at h
    · obtain ⟨rfl,rfl⟩ := pure_ok.mp h
      exact ⟨rfl,by simp,by simp⟩
    · simp only [bind_ok,orFail_ok,require_ok,pure_ok] at h
      obtain ⟨_,_,⟨-,rfl⟩,_,_,⟨-,rfl⟩,_,_,⟨-,rfl⟩,_,_,⟨-,rfl⟩,_,_,⟨-,rfl⟩,rfl,rfl⟩ := h
      refine ⟨rfl,?_,by simp⟩
      rintro s ⟨⟩
      exact ⟨.failOwned lease code cancelled manifest now _ rfl rfl,trivial⟩

end Calls

theorem matches_row {u : RunUpdate} (h : u.matches r = true) :
    r.id = u.runId ∧ r.status = u.change.expected := by
  simp only [RunUpdate.matches,Bool.and_eq_true,beq_iff_eq] at h
  exact ⟨h.1.1.1.2,h.1.2⟩

theorem changedRow_id (change : RunChange) (now : Time) (r : ContractReviewRunModel) :
    (changedRow change now r).id = r.id := by
  cases change <;> rfl

theorem changedRow_status (change : RunChange) (now : Time) (r : ContractReviewRunModel) :
    (changedRow change now r).status = change.target := by
  cases change <;> rfl

theorem runUpdate_ok {u : RunUpdate} {db db' : ContractDatabase}
    (h : runUpdate u db = .ok (record,db')) :
    ∃ r, u.matches r = true ∧
      Replaced r (changedRow u.change u.now r) db.runs db'.runs ∧
      (u.owner.isSome = true → record = some (recordOf (changedRow u.change u.now r))) := by
  simp only [runUpdate,bind_ok,zoom_ok,require_ok] at h
  obtain ⟨n,db₁,⟨runs,hupdate,hdb₁⟩,_,_,⟨hone,rfl⟩,h⟩ := h
  rcases updateRows_keyed hupdate u.runId (fun r hr => (matches_row hr).1)
      (changedRow_id u.change u.now) with ⟨hzero,-⟩ | ⟨-,r,hr,hreplaced⟩
  · omega
  have hruns : db₁.runs = runs := by rw [hdb₁]; rfl
  refine ⟨r,hr,?_⟩
  cases howner : u.owner with
  | none =>
    rw [howner] at h
    obtain ⟨-,rfl⟩ := pure_ok.mp h
    exact ⟨hruns ▸ hreplaced,by simp⟩
  | some owner =>
    simp only [howner,owned,bind_ok,read_ok,orFail_ok,pure_ok] at h
    obtain ⟨updated,_,⟨_,_,⟨rfl,rfl⟩,hselect,rfl⟩,rfl,rfl⟩ := h
    refine ⟨hruns ▸ hreplaced,fun _ => ?_⟩
    obtain ⟨hmem,howned⟩ := selectRow_some hselect
    rw [hruns] at hmem
    have hchanged := (replaced_mem hreplaced).mpr (Or.inl rfl)
    have hkey : updated.id = (changedRow u.change u.now r).id := by
      rw [isOwned_id howned,changedRow_id,(matches_row hr).1]
    rw [eq_of_key hmem hchanged hkey]

theorem insertRun_ok {model : ContractReviewRunModel} {db db' : ContractDatabase}
    (h : insertRun model db = .ok (record,db')) :
    Inserted model db.runs db'.runs := by
  simp only [insertRun,bind_ok,zoom_ok,insertRow_ok,pure_ok] at h
  obtain ⟨_,_,⟨runs,hrows,rfl⟩,-,rfl⟩ := h
  exact hrows

section Effects

variable (sha256 : List UInt8 → Digest) (wire : WireModels)

/-- What a step does to the runs, to the log and to the calls under way. -/
inductive ReviewEffect (w w' : ReviewWorld) : Prop
  | idle (hruns : w'.db.runs = w.db.runs) (hlog : w'.log = w.log)
      (hflight : ∀ p, some p ∈ w'.inFlight → some p ∈ w.inFlight)
  | answered (call : RunCall) (record : Option RunRecord)
      (hclaim : ∀ actor runId token clock now, call ≠ .claim actor runId token clock now)
      (hworld : w' = {w with log := ⟨call,none,record⟩::w.log})
  | started (call : RunCall) (s : Statement) (hshape : Shape sha256 wire call s)
      (hseen : Seen w.db.runs call)
      (hworld : w' = {w with inFlight := w.inFlight++[some (call,s)]})
  | inserted (call : RunCall) (model : ContractReviewRunModel) (record : Option RunRecord)
      (hmem : some (call,.insert model) ∈ w.inFlight)
      (hinserted : Inserted model w.db.runs w'.db.runs)
      (hlog : w'.log = ⟨call,some (.insert model),record⟩::w.log)
      (hflight : ∀ p, some p ∈ w'.inFlight → some p ∈ w.inFlight)
  | updated (call : RunCall) (u : RunUpdate) (r : ContractReviewRunModel)
      (record : Option RunRecord) (hmem : some (call,.update u) ∈ w.inFlight)
      (hmatch : u.matches r = true)
      (hreplaced : Replaced r (changedRow u.change u.now r) w.db.runs w'.db.runs)
      (hrecord : u.owner.isSome = true →
        record = some (recordOf (changedRow u.change u.now r)))
      (hlog : w'.log = ⟨call,some (.update u),call.returned record⟩::w.log)
      (hflight : ∀ p, some p ∈ w'.inFlight → some p ∈ w.inFlight)

variable {sha256 wire}

theorem mem_ended {p : RunCall × Statement} {l : List (Option (RunCall × Statement))} {i : ℕ}
    (h : some p ∈ l.set i none) : some p ∈ l := by
  rcases List.mem_or_eq_of_mem_set h with h | h
  · exact h
  · cases h

theorem startStep_effect (call : RunCall) (w : ReviewWorld) :
    ReviewEffect sha256 wire w (startStep sha256 wire call w) := by
  unfold startStep
  cases hbegin : beginCall sha256 wire call w.db with
  | error failure => exact .idle rfl rfl fun _ => id
  | ok begun =>
    obtain ⟨b,db⟩ := begun
    obtain ⟨-,hpending,hanswered⟩ := beginCall_ok hbegin
    cases b with
    | answered record => exact .answered call _ (hanswered record rfl) rfl
    | pending s =>
      obtain ⟨hshape,hseen⟩ := hpending s rfl
      exact .started call s hshape hseen rfl

theorem proceedStep_effect (i : ℕ) (w : ReviewWorld) :
    ReviewEffect sha256 wire w (proceedStep i w) := by
  unfold proceedStep
  split
  · rename_i call s hget
    have hmem := List.mem_of_getElem? hget
    cases hperform : perform s w.db with
    | error failure => exact .idle rfl rfl fun _ => mem_ended
    | ok performed =>
      obtain ⟨record,db⟩ := performed
      cases s with
      | insert model =>
        exact .inserted call model _ hmem (insertRun_ok hperform) rfl fun _ => mem_ended
      | update u =>
        obtain ⟨r,hmatch,hreplaced,hrecord⟩ := runUpdate_ok hperform
        exact .updated call u r record hmem hmatch hreplaced hrecord rfl fun _ => mem_ended
  · exact .idle rfl rfl fun _ => id

theorem reviewStep_effect (op : ReviewOp) (w : ReviewWorld) :
    ReviewEffect sha256 wire w (reviewStep sha256 wire op w) := by
  cases op with
  | elsewhere identity sessions => exact .idle rfl rfl fun _ => id
  | start call => exact startStep_effect call w
  | proceed i => exact proceedStep_effect i w
  | crash i => exact .idle rfl rfl fun _ => mem_ended

end Effects

def rank : RunStatus → ℕ
  | .awaitingUpload => 0
  | .uploaded => 1
  | .running => 2
  | _ => 3

theorem target_rank (change : RunChange) : rank change.target = rank change.expected+1 := by
  cases change with
  | finish withDraft result parsed manifest => cases withDraft <;> rfl
  | fail code cancelled => cases cancelled <;> rfl
  | failOwned code cancelled manifest => cases cancelled <;> rfl
  | _ => rfl

theorem expected_open (change : RunChange) : change.expected.terminal = false := by
  cases change <;> rfl

theorem rank_inj {s s' : RunStatus} (hs : s.terminal = false) (hs' : s'.terminal = false) :
    rank s = rank s' ↔ s = s' := by
  cases s <;> cases s' <;> simp_all [rank,RunStatus.terminal]

theorem terminal_iff (s : RunStatus) : s.terminal = true ↔ rank .running < rank s := by
  cases s <;> decide

def progress (runId : UUID7) (t : Table contractReviewRuns) : ℕ :=
  (selectRow (fun r => r.id == runId) t).elim 0 fun r => rank r.status

theorem progress_row (hr : r ∈ t) :
    progress r.id t = rank r.status := by
  have hselect : selectRow (fun x => x.id == r.id) t = some r :=
    selectRow_eq hr (beq_self_eq_true _) fun s hs hid => eq_of_key hs hr (eq_of_beq hid)
  rw [progress,hselect]
  rfl

theorem progress_none (h : ∀ r ∈ t, r.id ≠ runId) : progress runId t = 0 := by
  have hselect : selectRow (fun x => x.id == runId) t = none :=
    selectRow_none.mpr fun r hr => by simp [h r hr]
  rw [progress,hselect]
  rfl

theorem progress_congr {t t' : Table contractReviewRuns}
    (h : ∀ r, r.id = runId → (r ∈ t' ↔ r ∈ t)) :
    progress runId t' = progress runId t := by
  by_cases hrow : ∃ r ∈ t, r.id = runId
  · obtain ⟨r,hr,rfl⟩ := hrow
    rw [progress_row hr,progress_row ((h r rfl).mpr hr)]
  · have hnone : ∀ r ∈ t, r.id ≠ runId := fun r hr hid => hrow ⟨r,hr,hid⟩
    rw [progress_none hnone,progress_none fun r hr hid => hnone r ((h r hid).mp hr) hid]

def Returned.movedFrom (runId : UUID7) (s : RunStatus) (e : Returned) : Bool :=
  match e.wrote with
  | some (.update u) => u.runId == runId && u.change.expected == s
  | _ => false

/-- Each stage a run has left was left once. -/
def Counted (t : Table contractReviewRuns) (log : List Returned) : Prop :=
  ∀ runId s, s.terminal = false →
    log.countP (Returned.movedFrom runId s) = if rank s < progress runId t then 1 else 0

theorem Counted.le_one (h : Counted t log) (runId : UUID7) {s : RunStatus} (hs : s.terminal =
      false) :
    log.countP (Returned.movedFrom runId s) ≤ 1 := by
  rw [h runId s hs]
  split <;> simp

theorem counted_kept {t t' : Table contractReviewRuns} {e : Returned} (h : Counted t log)
    (hprogress : ∀ runId, progress runId t' = progress runId t)
    (he : ∀ runId s, e.movedFrom runId s = false) : Counted t' (e::log) := by
  intro runId s hs
  rw [List.countP_cons,he runId s,hprogress,h runId s hs]
  simp

theorem counted_updated {t t' : Table contractReviewRuns} {call : RunCall} {u : RunUpdate}
    (h : Counted t log) (hmatch : u.matches r = true)
    (hreplaced : Replaced r (changedRow u.change u.now r) t t') :
    Counted t' (⟨call,some (.update u),record⟩::log) := by
  obtain ⟨hid,hstatus⟩ := matches_row hmatch
  intro runId s hs
  rw [List.countP_cons,h runId s hs]
  simp only [Returned.movedFrom,Bool.and_eq_true,beq_iff_eq]
  by_cases hrun : u.runId = runId
  · subst hrun
    have hmem := (replaced_mem hreplaced).mpr (Or.inl rfl)
    have hbefore : progress u.runId t = rank u.change.expected := by
      rw [← hid,progress_row hreplaced.mem,hstatus]
    have hafter : progress u.runId t' = rank u.change.expected+1 := by
      have hrow := progress_row hmem
      rw [changedRow_id,changedRow_status,target_rank,hid] at hrow
      exact hrow
    have hinj := rank_inj (expected_open u.change) hs
    rw [hbefore,hafter]
    simp only [true_and,← hinj]
    split_ifs <;> omega
  · have hsame : progress runId t' = progress runId t := by
      refine progress_congr fun x hx => ?_
      rw [replaced_mem hreplaced]
      constructor
      · rintro (rfl | ⟨hmem,-⟩)
        · rw [changedRow_id,hid] at hx
          exact absurd hx hrun
        · exact hmem
      · intro hmem
        refine Or.inr ⟨hmem,fun hk => hrun ?_⟩
        rw [← hid,← hx]
        exact hk.symm
    rw [hsame]
    simp [hrun]

end LawyerAgent.ContractReviewRace
