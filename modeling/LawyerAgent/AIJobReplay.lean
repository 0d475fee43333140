import LawyerAgent.AIJobGrantScope
import LawyerAgent.IdempotencyClients

/-!
# Replayed creations

A completed reservation answers every later creation of its member under the
same key and body with the job it was completed with. The first answer carries
an etag written out in the source, a replayed one the version of the job row.
-/

set_option autoImplicit false

namespace LawyerAgent.AIJobReplay
open Relational Common AIJobDomain AIJobTables
open AIJobRepository AIJobOperations AIJobSubmission
open AIJobService IdentityTables
open Idempotency IdempotencyRepository IdempotencyService
open IdempotencyClients
open AIJobGrantScope (sampleIdentity sampleCall emptyDatabase)

variable {identity identity' : Identity} {q q' : CreateCall} {accepted : AcceptedAIJob}
  {db db' : JobDatabase}

def jobReference (jobId : UUID7) : IdempotencyResultReference :=
  ⟨jobResult jobId,by
    apply firstError_all
    simp only [idempotencyResultChecks,jobResult,List.forall_mem_cons]
    decide⟩

/-- The row of the job as it was inserted. -/
def submittedRow (q : CreateCall) (recordId : UUID7) : AIJobModel :=
  {submittedJob q.command.value q.ids recordId q.now with updatedAt := q.currentTimestamp}

/-- A creation that accepts a new job has its row and a record that names it. -/
structure Created (q : CreateCall) (accepted : AcceptedAIJob) (db' : JobDatabase) : Prop where
  jobId : accepted.jobId = q.ids.jobId
  tenantId : accepted.tenantId = q.command.value.tenantId
  etag : accepted.etag = "\"\x7b1\x7d\""
  row : ∃ recordId, submittedRow q recordId ∈ db'.store.jobs
  record : ∃ r, AnsweredWith db'.records (requestKey (reserveRequest q))
    q.prepared.requestFingerprint (jobReference q.ids.jobId) r

inductive CreateEffect (q : CreateCall) (db : JobDatabase) : AcceptedAIJob → JobDatabase → Prop
  | replayed (accepted : AcceptedAIJob) (same : accepted.replayed = true) :
      CreateEffect q db accepted db
  | created (accepted : AcceptedAIJob) (db' : JobDatabase) (new : Created q accepted db')
      (completed : ∀ r ∈ db.records, r.status = .completed → r ∈ db'.records) :
      CreateEffect q db accepted db'

theorem get_kept {tenantId jobId : UUID7} {found : Option AIJob} {s s' : Store}
    (h : AIJobRepository.get tenantId jobId s = .ok (found,s')) : s' = s := by
  obtain ⟨model,s₁,h₁,hk₁⟩ := bind_ok.mp h
  obtain ⟨-,rfl⟩ := read_ok.mp h₁
  cases model with
  | none => exact (pure_ok.mp hk₁).2.symm
  | some model =>
    change (ofExcept AIJobFailure.valueError (job model) >>= fun j => pure (some j)) s = _ at hk₁
    obtain ⟨j,s₂,h₂,hk₂⟩ := bind_ok.mp hk₁
    obtain ⟨-,rfl⟩ := ofExcept_ok.mp h₂
    exact (pure_ok.mp hk₂).2.symm

theorem get_row {tenantId jobId : UUID7} {model : AIJobModel} {j : AIJob} {s : Store}
    (hmodel : selectRow (isJob tenantId jobId) s.jobs = some model) (hj : job model = .ok j) :
    AIJobRepository.get tenantId jobId s = .ok (some j,s) := by
  have hread : (read fun s => selectRow (isJob tenantId jobId) s.jobs :
      StoreTx (Option AIJobModel)) s = .ok (some model,s) := read_ok.mpr ⟨hmodel,rfl⟩
  rw [AIJobRepository.get,bind_run hread]
  change (ofExcept AIJobFailure.valueError (job model) >>= fun j => pure (some j)) s = _
  rw [bind_run (ofExcept_ok.mpr ⟨hj,rfl⟩)]
  rfl

theorem create_effect (hfresh : ∀ r ∈ db.records, r.id ≠ q.recordId)
    (h : create identity q db = .ok (accepted,db')) : CreateEffect q db accepted db' := by
  obtain ⟨_,s₁,h₁,hk₁⟩ := bind_ok.mp h
  obtain ⟨-,rfl⟩ := require_ok.mp h₁
  obtain ⟨reservation,s₂,h₂,hk₂⟩ := bind_ok.mp hk₁
  obtain ⟨records,hreserve,rfl⟩ := within_ok.mp h₂
  have heffect := (reserve_effect hfresh hreserve).2
  cases hreplay : reservation.replay with
  | some reference =>
    rw [hreplay] at hk₂
    obtain ⟨found,s₃,h₃,hk₃⟩ := bind_ok.mp hk₂
    obtain ⟨store,hget,rfl⟩ := within_ok.mp h₃
    obtain ⟨job,s₄,h₄,hk₄⟩ := bind_ok.mp hk₃
    obtain ⟨-,rfl⟩ := orFail_ok.mp h₄
    obtain ⟨rfl,rfl⟩ := pure_ok.mp hk₄
    have hstore := get_kept hget
    cases heffect with
    | inserted t' new => cases hreplay
    | restarted r t' key fingerprint status row => cases hreplay
    | replayed r result mem key fingerprint completed =>
      rw [hstore]
      exact CreateEffect.replayed _ rfl
  | none =>
    rw [hreplay] at hk₂
    obtain ⟨graph,s₃,h₃,hk₃⟩ := bind_ok.mp hk₂
    obtain ⟨hgraph,rfl⟩ := ofExcept_ok.mp h₃
    obtain ⟨_,s₄,h₄,hk₄⟩ := bind_ok.mp hk₃
    obtain ⟨store,hadd,rfl⟩ := within_ok.mp h₄
    obtain ⟨result,s₅,h₅,hk₅⟩ := bind_ok.mp hk₄
    obtain ⟨hresult,rfl⟩ := ofExcept_ok.mp h₅
    obtain ⟨_,s₆,h₆,hk₆⟩ := bind_ok.mp hk₅
    obtain ⟨records',hcomplete,rfl⟩ := within_ok.mp h₆
    obtain ⟨rfl,rfl⟩ := pure_ok.mp hk₆
    obtain ⟨hanswered,hkept⟩ := complete_answered heffect hcomplete
    have hreference : result = jobReference q.ids.jobId := by
      have hvalue := postInit_ok hresult
      cases result
      cases hvalue
      rfl
    rw [hreference] at hanswered
    refine .created _ _ ⟨rfl,rfl,rfl,⟨reservation.recordId,?_⟩,hanswered⟩ hkept
    have hrow := (inserted_mem (addJobGraph_ok hadd).1).mpr (Or.inl rfl)
    simp only [jobModel,(submittedGraph_ok hgraph).1] at hrow
    exact hrow

/-- A creation by anyone, or anything else: other changes of the store and any
calls of other clients on the idempotency records. -/
inductive ServiceOp where
  | create (identity : Identity) (q : CreateCall)
  | elsewhere (store : Store) (held : List Held) (calls : List ClientOp)

/-- An identifier is never drawn twice. -/
def serviceStep : ServiceOp → JobDatabase → JobDatabase
  | .create identity q, db =>
    if db.records.rows.any fun r => r.id == q.recordId then db
    else commit (create identity q) db
  | .elsewhere store held calls, db => ⟨store,(run clientStep calls ⟨db.records,held⟩).records⟩

def CompletedKept (db db' : JobDatabase) : Prop :=
  ∀ r ∈ db.records, r.status = .completed → r ∈ db'.records

instance : Std.Refl CompletedKept := ⟨fun _ _ hr _ => hr⟩

instance : IsTrans JobDatabase CompletedKept where
  trans := fun _ _ _ h k r hr hs => k r (h r hr hs) hs

theorem create_completed (hfresh : ∀ r ∈ db.records, r.id ≠ q.recordId)
    (h : create identity q db = .ok (accepted,db')) : CompletedKept db db' := by
  cases create_effect hfresh h with
  | replayed same => exact refl db
  | created db' new completed => exact completed

theorem step_completed (op : ServiceOp) (db : JobDatabase) :
    CompletedKept db (serviceStep op db) := by
  cases op with
  | create identity q =>
    simp only [serviceStep]
    split
    · exact refl db
    · rename_i hunused
      have hfresh : ∀ r ∈ db.records, r.id ≠ q.recordId := by
        simpa [mem_rows] using hunused
      exact commit_of (refl db) fun accepted t h => create_completed hfresh h
  | elsewhere store held calls => exact run_final calls ⟨db.records,held⟩

theorem run_completed (ops : List ServiceOp) (db : JobDatabase) :
    CompletedKept db (run serviceStep ops db) :=
  run_related step_completed ops db

/-- The second call has the key and the body of the first, and its permission. -/
structure Repeats (identity : Identity) (q q' : CreateCall) : Prop where
  tenant : q'.command.value.tenantId = q.command.value.tenantId
  member : q'.command.value.membershipId = q.command.value.membershipId
  prepared : q'.prepared = q.prepared
  permission : AIJobPermission.create.value ∈
    permissionCodes q'.command.value.tenantId q'.command.value.membershipId identity

theorem repeats_key (h : Repeats identity q q') :
    requestKey (reserveRequest q) = requestKey (reserveRequest q') := by
  simp only [requestKey,reserveRequest,jobScope,h.tenant,h.member,h.prepared]

theorem create_operation : operationOk "ai_job.create" = true := by decide

theorem submittedRow_read (q : CreateCall) (recordId : UUID7) :
    ∃ j, job (submittedRow q recordId) = .ok j ∧ j.value.id = q.ids.jobId ∧
      j.value.version = 1 := by
  have hvalid : ∀ c ∈ aiJobChecks (submittedRow q recordId).toAIJobFields, c.1 = true := by
    simp only [aiJobChecks,submittedRow,submittedJob,List.forall_mem_cons,List.not_mem_nil]
    exact ⟨rfl,rfl,rfl,rfl,fun _ => False.elim⟩
  exact ⟨_,postInit_of hvalid,rfl,rfl⟩

theorem create_replays (hrepeats : Repeats identity q q') {recordId : UUID7}
    (hrow : submittedRow q recordId ∈ db.store.jobs) {r : IdempotencyRecordModel}
    (hr : AnsweredWith db.records (requestKey (reserveRequest q)) q.prepared.requestFingerprint
      (jobReference q.ids.jobId) r) (hfresh : ∀ x ∈ db.records, x.id ≠ q'.recordId) :
    create identity q' db =
      .ok (⟨q.ids.jobId,q.command.value.tenantId,"\"1\"",true⟩,db) := by
  have hreserve := reserve_completed (q := reserveRequest q') create_operation hr.mem
    (hr.key.trans (repeats_key hrepeats)) (hfresh r hr.mem) hr.completed hr.result
  have hprint : r.requestFingerprint = (reserveRequest q').prepared.requestFingerprint := by
    rw [hr.fingerprint]
    exact congrArg PreparedIdempotencyRequest.requestFingerprint hrepeats.prepared.symm
  rw [if_pos hprint] at hreserve
  have hselect : selectRow (isJob q'.command.value.tenantId q.ids.jobId) db.store.jobs =
      some (submittedRow q recordId) := by
    apply selectRow_eq hrow
    · rw [hrepeats.tenant]
      simp [isJob,submittedRow,submittedJob]
    · intro s hs hmatch
      simp only [isJob,Bool.and_eq_true,beq_iff_eq] at hmatch
      exact eq_of_key hs hrow hmatch.2
  obtain ⟨j,hj,hid,hversion⟩ := submittedRow_read q recordId
  have hget := get_row hselect hj
  rw [create,bind_run ((require_ok (u := ())).mpr ⟨hrepeats.permission,rfl⟩),
    bind_run (within_ok.mpr ⟨_,hreserve,rfl⟩)]
  simp only
  rw [bind_run (within_ok.mpr ⟨_,hget,rfl⟩)]
  rw [bind_run (orFail_ok.mpr ⟨rfl,rfl⟩),hid,hversion,hrepeats.tenant]
  rfl

/-- No replay has the etag of the first answer. -/
theorem replay_etag (hfresh : ∀ r ∈ db.records, r.id ≠ q.recordId)
    (hfirst : create identity q db = .ok (accepted,db')) (hnew : accepted.replayed = false)
    (ops : List ServiceOp) (hunchanged : ∀ j ∈ db'.store.jobs, j.id = accepted.jobId →
      j ∈ (run serviceStep ops db').store.jobs)
    (hrepeats : Repeats identity' q q')
    (hunused : ∀ r ∈ (run serviceStep ops db').records, r.id ≠ q'.recordId) :
    ∃ replayed, create identity' q' (run serviceStep ops db') =
        .ok (replayed,run serviceStep ops db') ∧
      replayed.replayed = true ∧ replayed.jobId = accepted.jobId ∧
      replayed.tenantId = accepted.tenantId ∧ replayed.etag ≠ accepted.etag := by
  cases create_effect hfresh hfirst with
  | replayed same =>
    rw [same] at hnew
    cases hnew
  | created db' new completed =>
    obtain ⟨recordId,hrow⟩ := new.row
    obtain ⟨r,hr⟩ := new.record
    have hkept := run_completed ops db' r hr.mem hr.completed
    have hstays := hunchanged _ hrow new.jobId.symm
    refine ⟨_,create_replays hrepeats hstays ⟨hkept,hr.key,hr.completed,hr.fingerprint,hr.result⟩
      hunused,rfl,new.jobId.symm,new.tenantId.symm,?_⟩
    rw [new.etag]
    change "\"1\"" ≠ _
    decide

def repeatedCall : CreateCall := {sampleCall with recordId := ⟨0,2,1⟩}

def firstDatabase : JobDatabase :=
  commit (create (sampleIdentity "assistant") sampleCall) emptyDatabase

theorem sample_created : ∃ accepted,
    create (sampleIdentity "assistant") sampleCall emptyDatabase = .ok (accepted,firstDatabase) ∧
    accepted.replayed = false := by
  have h : (outcome (create (sampleIdentity "assistant") sampleCall) emptyDatabase).toOption.map
      AcceptedAIJob.replayed = some false := by decide
  cases hc : outcome (create (sampleIdentity "assistant") sampleCall) emptyDatabase with
  | error e =>
    rw [hc] at h
    cases h
  | ok accepted =>
    rw [hc] at h
    exact ⟨accepted,outcome_ok hc,Option.some.inj h⟩

theorem sample_repeats : Repeats (sampleIdentity "assistant") sampleCall repeatedCall :=
  ⟨rfl,rfl,rfl,by decide⟩

theorem sample_empty : ∀ r ∈ emptyDatabase.records, r.id ≠ sampleCall.recordId :=
  fun r h => absurd h (not_mem_empty r)

theorem sample_unused : ∀ r ∈ firstDatabase.records, r.id ≠ repeatedCall.recordId := by
  change ∀ r ∈ firstDatabase.records.rows, r.id ≠ repeatedCall.recordId
  decide

theorem sample_replay_etag : ∃ accepted,
    create (sampleIdentity "assistant") sampleCall emptyDatabase = .ok (accepted,firstDatabase) ∧
    ∃ replayed, create (sampleIdentity "assistant") repeatedCall firstDatabase =
        .ok (replayed,firstDatabase) ∧
      replayed.replayed = true ∧ replayed.jobId = accepted.jobId ∧
      replayed.tenantId = accepted.tenantId ∧ replayed.etag ≠ accepted.etag := by
  obtain ⟨accepted,hfirst,hnew⟩ := sample_created
  exact ⟨accepted,hfirst,replay_etag sample_empty hfirst hnew [] (fun _ h _ => h)
    sample_repeats sample_unused⟩

/-- A first answer and its replay differ. -/
theorem sample_etags_differ :
    ¬∀ (identity : Identity) (q q' : CreateCall) (db db' db'' : JobDatabase)
      (accepted replayed : AcceptedAIJob), create identity q db = .ok (accepted,db') →
        accepted.replayed = false → Repeats identity q q' →
        create identity q' db' = .ok (replayed,db'') → replayed.etag = accepted.etag := by
  intro h
  obtain ⟨accepted,hfirst,hnew⟩ := sample_created
  cases create_effect sample_empty hfirst with
  | created _ new completed =>
    obtain ⟨recordId,hrow⟩ := new.row
    obtain ⟨r,hr⟩ := new.record
    have hsecond := create_replays sample_repeats hrow hr sample_unused
    have hsame := h _ _ _ _ _ _ _ _ hfirst hnew sample_repeats hsecond
    rw [new.etag] at hsame
    exact absurd hsame (by decide)

end LawyerAgent.AIJobReplay
