import LawyerAgent.IdempotencyRepository

/-!
# Idempotency service

A reservation is handed out for a new record, for a failed one and for one
whose reservation has expired; a completed record is replayed. The identifier
of the candidate record is drawn by the caller of the model.
-/

set_option autoImplicit false

namespace LawyerAgent.IdempotencyService
open Relational Common Idempotency IdempotencyRepository

structure IdempotencyServiceFields where
  ttl : Time := hours 24

def idempotencyServiceChecks : Checks IdempotencyServiceFields := fun s =>
  [(seconds 60 ≤ s.ttl ∧ s.ttl ≤ hours (7*24),
    "idempotency TTL must be between one minute and seven days")]

theorem defaults_ok : firstError (idempotencyServiceChecks {}) = none := by decide

structure IdempotencyReservation where
  recordId : UUID7
  requestFingerprint : Digest
  replay : Option IdempotencyResultReference

def IdempotencyReservation.isReplay (r : IdempotencyReservation) : Bool := r.replay.isSome

structure IdempotencyKey where
  scope : IdempotencyScopeFields
  operation : String
  keyHash : Digest
deriving DecidableEq

def scopeOf (r : IdempotencyRecordModel) : IdempotencyScopeFields :=
  ⟨r.scopeType,r.scopeId,r.tenantId⟩

def recordKey (r : IdempotencyRecordModel) : IdempotencyKey :=
  ⟨scopeOf r,r.operation,r.keyHash⟩

structure ReserveRequest where
  service : Checked idempotencyServiceChecks
  scope : IdempotencyScope
  operation : String
  prepared : PreparedIdempotencyRequest
  newId : UUID7
  now : Time
  currentTimestamp : Time

def requestKey (q : ReserveRequest) : IdempotencyKey :=
  ⟨q.scope.value,q.operation,q.prepared.keyHash⟩

def candidate (q : ReserveRequest) : NewIdempotencyRecord where
  id := q.newId
  scope := q.scope
  operation := q.operation
  keyHash := q.prepared.keyHash
  requestFingerprint := q.prepared.requestFingerprint
  expiresAt := q.now+q.service.value.ttl

def restarted (q : ReserveRequest) (record : StoredIdempotencyRecord)
    (status : IdempotencyStatus) (expiredBefore : Option Time) (message : String) :
    RecordsTx IdempotencyReservation := do
  let done ← restart record.id record.requestFingerprint q.prepared.requestFingerprint
    [status] expiredBefore (q.now+q.service.value.ttl)
  require (done = true) (.stateError message)
  pure ⟨record.id,q.prepared.requestFingerprint,none⟩

def reserve (q : ReserveRequest) : RecordsTx IdempotencyReservation := do
  require (operationOk q.operation = true) (.valueError "idempotency operation is invalid")
  let acquired ← acquire (candidate q) q.currentTimestamp
  let record := acquired.record
  if acquired.inserted then
    pure ⟨record.id,q.prepared.requestFingerprint,none⟩
  else
    require (record.requestFingerprint = q.prepared.requestFingerprint) .conflict
    match record.status with
    | .completed => do
      let result ← orFail (.stateError "completed idempotency record has no result")
        record.result
      pure ⟨record.id,q.prepared.requestFingerprint,some result⟩
    | .failed =>
      restarted q record .failed none "failed idempotency record could not be recovered"
    | .reserved =>
      if record.expiresAt ≤ q.now then
        restarted q record .reserved (some q.now)
          "expired idempotency record could not be recovered"
      else Relational.fail .inProgress

def complete (reservation : IdempotencyReservation) (result : IdempotencyResultReference)
    (now : Time) : RecordsTx Unit := do
  require (reservation.isReplay = false)
    (.stateError "a replay reservation cannot be completed again")
  let done ← IdempotencyRepository.complete reservation.recordId
    reservation.requestFingerprint result now
  require (done = true) (.stateError "idempotency reservation is no longer completable")

def fail (reservation : IdempotencyReservation) (now : Time) : RecordsTx Unit := do
  require (reservation.isReplay = false) (.stateError "a replay reservation cannot fail")
  let done ← IdempotencyRepository.fail reservation.recordId
    reservation.requestFingerprint now
  require (done = true) (.stateError "idempotency reservation is no longer fail-able")

variable {r : IdempotencyRecordModel} {record : StoredIdempotencyRecord} {c : NewIdempotencyRecord}
  {t t' : Records} {q : ReserveRequest} {reservation : IdempotencyReservation}
  {result : IdempotencyResultReference}

theorem stored_ok (h : stored r = .ok record) : record.id = r.id ∧ record.scope.value = scopeOf r ∧
    record.requestFingerprint = r.requestFingerprint ∧ record.status = r.status ∧
    record.expiresAt = r.expiresAt ∧ storedResult r = .ok record.result := by
  simp only [stored,bind,Except.bind] at h
  split at h
  · cases h
  rename_i result hresult
  split at h
  · cases h
  rename_i scope hscope
  cases h
  have hp : postInit idempotencyScopeChecks ⟨r.scopeType,r.scopeId,r.tenantId⟩ = .ok scope := by
    cases hpost : postInit idempotencyScopeChecks ⟨r.scopeType,r.scopeId,r.tenantId⟩ with
    | error message =>
      rw [hpost] at hscope
      cases hscope
    | ok checked =>
      rw [hpost] at hscope
      cases hscope
      rfl
  exact ⟨rfl,postInit_ok hp,rfl,rfl,rfl,hresult⟩

theorem stored_of {scope : IdempotencyScope} {result : Option IdempotencyResultReference}
    (hs : scopeOf r = scope.value) (hr : storedResult r = .ok result) :
    ∃ record, stored r = .ok record ∧
      record.scope = scope ∧ record.result = result := by
  have hp : postInit idempotencyScopeChecks ⟨r.scopeType,r.scopeId,r.tenantId⟩ =
      .ok scope := by
    change postInit idempotencyScopeChecks (scopeOf r) = _
    rw [hs,postInit_value]
  refine ⟨⟨r.id,scope,r.operation,r.keyHash,r.requestFingerprint,r.status,result,
    r.expiresAt⟩,?_,rfl,rfl⟩
  simp only [stored,hr,hp,bind,Except.bind,Except.mapError]

theorem hasKey_iff (c : NewIdempotencyRecord) (r : IdempotencyRecordModel) :
    hasKey c r = true ↔ r.scopeType = c.scope.value.scopeType ∧
      r.scopeId = c.scope.value.scopeId ∧ r.operation = c.operation ∧
      r.keyHash = c.keyHash := by
  simp [hasKey,and_assoc]

theorem hasKey_clash (h : hasKey c r = true) (currentTimestamp : Time) :
    idempotencyRecords.clash (candidateModel c currentTimestamp) r = true := by
  obtain ⟨h₁,h₂,h₃,h₄⟩ := (hasKey_iff c r).mp h
  simp [idempotencyRecords,candidateModel,h₁,h₂,h₃,h₄]

theorem hasKey_unique {r s : IdempotencyRecordModel} (hr : r ∈ t) (hs : s ∈ t)
    (hkr : hasKey c r = true) (hks : hasKey c s = true) :
    r = s := by
  obtain ⟨h₁,h₂,h₃,h₄⟩ := (hasKey_iff c r).mp hkr
  obtain ⟨k₁,k₂,k₃,k₄⟩ := (hasKey_iff c s).mp hks
  exact eq_of_clash hr hs (by simp [idempotencyRecords,h₁,h₂,h₃,h₄,k₁,k₂,k₃,k₄])

theorem acquire_ok {timestamp : Time} {a : AcquiredIdempotencyRecord}
    (h : acquire c timestamp t = .ok (a,t')) :
    ∃ r ∈ t', hasKey c r = true ∧ stored r = .ok a.record ∧
      a.record.scope.value = c.scope.value ∧ a.inserted = (r.id == c.id) ∧
      ((Inserted (candidateModel c timestamp) t t' ∧ r = candidateModel c timestamp) ∨
        t' = t) := by
  obtain ⟨_,t₁,h₁,hk₁⟩ := bind_ok.mp h
  obtain ⟨found,t₂,h₂,hk₂⟩ := bind_ok.mp hk₁
  obtain ⟨hfound,rfl⟩ := read_ok.mp h₂
  obtain ⟨r,t₃,h₃,hk₃⟩ := bind_ok.mp hk₂
  obtain ⟨hr,rfl⟩ := orFail_ok.mp h₃
  obtain ⟨record,t₄,h₄,hk₄⟩ := bind_ok.mp hk₃
  obtain ⟨hstored,rfl⟩ := ofExcept_ok.mp h₄
  obtain ⟨_,t₅,h₅,hk₅⟩ := bind_ok.mp hk₄
  obtain ⟨hscope,rfl⟩ := require_ok.mp h₅
  obtain ⟨rfl,rfl⟩ := pure_ok.mp hk₅
  obtain ⟨hmem,hkey⟩ := selectRow_some (hfound.trans hr)
  refine ⟨r,hmem,hkey,hstored,hscope,rfl,?_⟩
  rcases insertOrKeep_ok.mp h₁ with ⟨-,hins⟩ | ⟨-,hkeep⟩
  · left
    refine ⟨hins,hasKey_unique hmem ((inserted_mem hins).mpr (Or.inl rfl)) hkey ?_⟩
    exact (hasKey_iff c _).mpr ⟨rfl,rfl,rfl,rfl⟩
  · exact Or.inr hkeep

theorem acquire_existing {timestamp : Time} (hr : r ∈ t) (hkey : hasKey c r = true)
    (hstored : stored r = .ok record) (hscope : record.scope.value = c.scope.value)
    (hid : r.id ≠ c.id) :
    acquire c timestamp t = .ok (⟨record,false⟩,t) := by
  have hkeep : insertOrKeep IdempotencyFailure.integrityError (candidateModel c timestamp) t =
      .ok ((),t) := by
    refine insertOrKeep_ok.mpr (Or.inr ⟨⟨r,hr,fun hap => ?_⟩,rfl⟩)
    have hclash := hasKey_clash hkey timestamp
    rw [hap.2.1] at hclash
    cases hclash
  have hselect : selectRow (hasKey c) t = some r :=
    selectRow_eq hr hkey fun s hs hks => hasKey_unique hs hr hks hkey
  refine bind_ok.mpr ⟨(),t,hkeep,?_⟩
  refine bind_ok.mpr ⟨some r,t,read_ok.mpr ⟨hselect,rfl⟩,?_⟩
  refine bind_ok.mpr ⟨r,t,orFail_ok.mpr ⟨rfl,rfl⟩,?_⟩
  refine bind_ok.mpr ⟨record,t,ofExcept_ok.mpr ⟨hstored,rfl⟩,?_⟩
  refine bind_ok.mpr ⟨(),t,require_ok.mpr ⟨hscope,rfl⟩,?_⟩
  exact pure_ok.mpr ⟨by simp [hid],rfl⟩

theorem restart_ok {recordId : UUID7} {old new : Digest} {statuses : List IdempotencyStatus}
    {expiredBefore : Option Time} {expiresAt : Time} {b : Bool}
    (h : restart recordId old new statuses expiredBefore expiresAt t = .ok (b,t')) :
    (b = false ∧ t' = t) ∨
    (b = true ∧ ∃ r, restartable recordId old statuses expiredBefore r = true ∧
      Replaced r (restartedRecord new expiresAt r) t t') := by
  obtain ⟨_,t₁,h₁,hk₁⟩ := bind_ok.mp h
  obtain ⟨-,rfl⟩ := require_ok.mp h₁
  obtain ⟨n,t₂,h₂,hk₂⟩ := bind_ok.mp hk₁
  obtain ⟨rfl,rfl⟩ := pure_ok.mp hk₂
  have hid : ∀ r, restartable recordId old statuses expiredBefore r = true →
      idempotencyRecords.key r = recordId := by
    intro r hr
    simp only [restartable,Bool.and_eq_true,beq_iff_eq] at hr
    exact hr.1.1.1
  rcases updateRows_keyed h₂ recordId hid (fun _ => rfl) with ⟨rfl,rfl,-⟩ | ⟨rfl,r,hr,hrep⟩
  · exact Or.inl ⟨rfl,rfl⟩
  · exact Or.inr ⟨rfl,r,hr,hrep⟩

theorem restarted_ok {status : IdempotencyStatus} {expiredBefore : Option Time} {message : String}
    (h : restarted q record status expiredBefore message t = .ok (reservation,t')) :
    reservation = ⟨record.id,q.prepared.requestFingerprint,none⟩ ∧
    ∃ r, r.id = record.id ∧ r.status = status ∧
      Replaced r (restartedRecord q.prepared.requestFingerprint
        (q.now+q.service.value.ttl) r) t t' := by
  obtain ⟨b,t₁,h₁,hk₁⟩ := bind_ok.mp h
  obtain ⟨_,t₂,h₂,hk₂⟩ := bind_ok.mp hk₁
  obtain ⟨rfl,rfl⟩ := require_ok.mp h₂
  obtain ⟨rfl,rfl⟩ := pure_ok.mp hk₂
  rcases restart_ok h₁ with ⟨hb,-⟩ | ⟨-,r,hr,hrep⟩
  · cases hb
  · simp only [restartable,Bool.and_eq_true,beq_iff_eq,decide_eq_true_eq,
      List.mem_singleton] at hr
    exact ⟨rfl,r,hr.1.1.1,hr.1.2,hrep⟩

/-- What a reservation does, for an identifier that no record has. -/
inductive ReserveEffect (q : ReserveRequest) (t : Records) :
    IdempotencyReservation → Records → Prop where
  | inserted (t' : Records)
      (new : Inserted (candidateModel (candidate q) q.currentTimestamp) t t') :
      ReserveEffect q t ⟨q.newId,q.prepared.requestFingerprint,none⟩ t'
  | replayed (r : IdempotencyRecordModel) (result : IdempotencyResultReference)
      (mem : r ∈ t) (key : recordKey r = requestKey q)
      (fingerprint : r.requestFingerprint = q.prepared.requestFingerprint)
      (completed : r.status = .completed) :
      ReserveEffect q t ⟨r.id,q.prepared.requestFingerprint,some result⟩ t
  | restarted (r : IdempotencyRecordModel) (t' : Records) (key : recordKey r = requestKey q)
      (fingerprint : r.requestFingerprint = q.prepared.requestFingerprint)
      (status : r.status = .failed ∨ r.status = .reserved ∧ r.expiresAt ≤ q.now)
      (row : Replaced r (restartedRecord q.prepared.requestFingerprint
        (q.now+q.service.value.ttl) r) t t') :
      ReserveEffect q t ⟨r.id,q.prepared.requestFingerprint,none⟩ t'

theorem reserve_effect (hfresh : ∀ r ∈ t, r.id ≠ q.newId) (h : reserve q t = .ok (reservation,t')) :
    operationOk q.operation = true ∧ ReserveEffect q t reservation t' := by
  obtain ⟨_,t₁,h₁,hk₁⟩ := bind_ok.mp h
  obtain ⟨hop,rfl⟩ := require_ok.mp h₁
  obtain ⟨a,t₂,h₂,hk₂⟩ := bind_ok.mp hk₁
  obtain ⟨r,hr,hkey,hstored,hscope,hins,hcase⟩ := acquire_ok h₂
  refine ⟨hop,?_⟩
  obtain ⟨hid,hsv,hfp,hst,hexp,hres⟩ := stored_ok hstored
  have hrk : recordKey r = requestKey q := by
    obtain ⟨-,-,ho,hh⟩ := (hasKey_iff _ _).mp hkey
    simp only [recordKey,requestKey,IdempotencyKey.mk.injEq]
    exact ⟨hsv.symm.trans hscope,ho,hh⟩
  by_cases hin : a.inserted = true
  · rw [if_pos hin] at hk₂
    obtain ⟨rfl,rfl⟩ := pure_ok.mp hk₂
    have hrid : r.id = q.newId := by
      rw [hins] at hin
      exact eq_of_beq hin
    rcases hcase with ⟨hnew,-⟩ | hsame
    · rw [hid,hrid]
      exact .inserted t₂ hnew
    · exact absurd hrid (hfresh r (hsame ▸ hr))
  · rw [if_neg hin] at hk₂
    have hsame : t₂ = t := by
      rcases hcase with ⟨-,hcand⟩ | hsame
      · rw [hins,hcand] at hin
        simp [candidateModel] at hin
      · exact hsame
    rw [hsame] at hk₂ hr
    obtain ⟨_,t₃,h₃,hk₃⟩ := bind_ok.mp hk₂
    obtain ⟨hsamefp,rfl⟩ := require_ok.mp h₃
    have hrf : r.requestFingerprint = q.prepared.requestFingerprint := hfp.symm.trans hsamefp
    -- the restarted row is the acquired one: both have its id
    have hrestart : ∀ {status expiredBefore message},
        restarted q a.record status expiredBefore message t = .ok (reservation,t') →
        (status = .failed ∨ status = .reserved ∧ r.expiresAt ≤ q.now) →
        ReserveEffect q t reservation t' := by
      intro status expiredBefore message hres hcond
      obtain ⟨rfl,s,hsid,hss,hrep⟩ := restarted_ok hres
      obtain rfl : s = r := eq_of_key hrep.mem hr (hsid.trans hid)
      rw [hid]
      exact .restarted s t' hrk hrf (hss ▸ hcond) hrep
    cases hstatus : a.record.status with
    | completed =>
      rw [hstatus] at hk₃
      obtain ⟨result,t₄,h₄,hk₄⟩ := bind_ok.mp hk₃
      obtain ⟨hsome,rfl⟩ := orFail_ok.mp h₄
      obtain ⟨rfl,rfl⟩ := pure_ok.mp hk₄
      rw [hid]
      exact .replayed r result hr hrk hrf (hst.symm.trans hstatus)
    | failed =>
      rw [hstatus] at hk₃
      exact hrestart hk₃ (Or.inl rfl)
    | reserved =>
      rw [hstatus] at hk₃
      by_cases hexpired : a.record.expiresAt ≤ q.now
      · simp only [hexpired,if_true] at hk₃
        exact hrestart hk₃ (Or.inr ⟨rfl,hexp ▸ hexpired⟩)
      · simp only [hexpired,if_false] at hk₃
        cases fail_ok.mp hk₃

theorem reservedFor_fields {recordId : UUID7} {fingerprint : Digest}
    (h : reservedFor recordId fingerprint r = true) :
    r.id = recordId ∧ r.status = .reserved ∧ r.requestFingerprint = fingerprint := by
  simpa [reservedFor,and_assoc] using h

theorem complete_effect {now : Time} (h : complete reservation result now t = .ok ((),t')) :
    reservation.replay = none ∧ ∃ resultType r, serializeResultType result = .ok resultType ∧
      reservedFor reservation.recordId reservation.requestFingerprint r = true ∧
      Replaced r (completedRecord resultType result.value.resultId now r) t t' := by
  obtain ⟨_,t₁,h₁,hk₁⟩ := bind_ok.mp h
  obtain ⟨hplay,rfl⟩ := require_ok.mp h₁
  obtain ⟨b,t₂,h₂,hk₂⟩ := bind_ok.mp hk₁
  obtain ⟨hb,rfl⟩ := require_ok.mp hk₂
  obtain ⟨resultType,t₃,h₃,hk₃⟩ := bind_ok.mp h₂
  obtain ⟨hserial,rfl⟩ := ofExcept_ok.mp h₃
  obtain ⟨n,t₄,h₄,hk₄⟩ := bind_ok.mp hk₃
  obtain ⟨hn,rfl⟩ := pure_ok.mp hk₄
  refine ⟨by simpa [IdempotencyReservation.isReplay] using hplay,resultType,?_⟩
  rcases updateRows_keyed h₄ reservation.recordId (fun r hr => (reservedFor_fields hr).1)
    (fun _ => rfl) with ⟨rfl,-,-⟩ | ⟨-,r,hr,hrep⟩
  · rw [← hn] at hb
    cases hb
  · exact ⟨r,hserial,hr,hrep⟩

theorem fail_effect {now : Time} (h : fail reservation now t = .ok ((),t')) :
    reservation.replay = none ∧ ∃ r,
      reservedFor reservation.recordId reservation.requestFingerprint r = true ∧
      Replaced r (failedRecord now r) t t' := by
  obtain ⟨_,t₁,h₁,hk₁⟩ := bind_ok.mp h
  obtain ⟨hplay,rfl⟩ := require_ok.mp h₁
  obtain ⟨b,t₂,h₂,hk₂⟩ := bind_ok.mp hk₁
  obtain ⟨hb,rfl⟩ := require_ok.mp hk₂
  obtain ⟨n,t₃,h₃,hk₃⟩ := bind_ok.mp h₂
  obtain ⟨hn,rfl⟩ := pure_ok.mp hk₃
  refine ⟨by simpa [IdempotencyReservation.isReplay] using hplay,?_⟩
  rcases updateRows_keyed h₃ reservation.recordId (fun r hr => (reservedFor_fields hr).1)
    (fun _ => rfl) with ⟨rfl,-,-⟩ | ⟨-,r,hr,hrep⟩
  · rw [← hn] at hb
    cases hb
  · exact ⟨r,hr,hrep⟩

theorem reserve_completed (hop : operationOk q.operation = true) (hr : r ∈ t)
    (hkey : recordKey r = requestKey q) (hid : r.id ≠ q.newId) (hdone : r.status = .completed)
    (hresult : storedResult r = .ok (some result)) :
    reserve q t =
      if r.requestFingerprint = q.prepared.requestFingerprint then
        .ok (⟨r.id,q.prepared.requestFingerprint,some result⟩,t)
      else .error .conflict := by
  simp only [recordKey,requestKey,IdempotencyKey.mk.injEq] at hkey
  obtain ⟨hscope,ho,hh⟩ := hkey
  obtain ⟨record,hstored,hs,hres⟩ := stored_of hscope hresult
  obtain ⟨hrid,-,hfp,hst,-,-⟩ := stored_ok hstored
  have hk : hasKey (candidate q) r = true := by
    refine (hasKey_iff _ _).mpr ⟨?_,?_,ho,hh⟩
    · exact congrArg IdempotencyScopeFields.scopeType hscope
    · exact congrArg IdempotencyScopeFields.scopeId hscope
  have hacq : acquire (candidate q) q.currentTimestamp t = .ok (⟨record,false⟩,t) :=
    acquire_existing hr hk hstored (congrArg Checked.value hs) hid
  by_cases hsame : r.requestFingerprint = q.prepared.requestFingerprint
  · rw [if_pos hsame]
    refine bind_ok.mpr ⟨(),t,require_ok.mpr ⟨hop,rfl⟩,?_⟩
    refine bind_ok.mpr ⟨⟨record,false⟩,t,hacq,?_⟩
    rw [if_neg Bool.false_ne_true]
    refine bind_ok.mpr
      ⟨(),t,require_ok.mpr ⟨hfp.trans hsame,rfl⟩,?_⟩
    simp only [hst,hdone]
    refine bind_ok.mpr ⟨result,t,orFail_ok.mpr ⟨hres,rfl⟩,?_⟩
    exact pure_ok.mpr ⟨by rw [hrid],rfl⟩
  · rw [if_neg hsame]
    have hne : ¬record.requestFingerprint = q.prepared.requestFingerprint := by
      rw [hfp]
      exact hsame
    refine bind_error.mpr (Or.inr ⟨(),t,require_ok.mpr ⟨hop,rfl⟩,?_⟩)
    refine bind_error.mpr (Or.inr ⟨⟨record,false⟩,t,hacq,?_⟩)
    rw [if_neg Bool.false_ne_true]
    exact bind_error.mpr (Or.inl (require_error.mpr ⟨hne,rfl⟩))

end LawyerAgent.IdempotencyService
