import LawyerAgent.IdempotencyService
import LawyerAgent.Relational.Run
import LawyerAgent.Relational.Evolution

/-!
# Clients of one idempotency store

Every reservation handed out stays with its client, who may complete or fail
it at any later time and more than once. A reservation is live until its
client ends it or another client takes over its record after the expiry.
Records are guarded by id, status and fingerprint alone: a client whose
reservation was taken over still passes the guard of its successor.
-/

set_option autoImplicit false

namespace LawyerAgent.IdempotencyClients
open Relational Common Idempotency IdempotencyRepository
open IdempotencyService

inductive Standing where
  | live
  | overtaken
  | completed (result : IdempotencyResultReference)
  | failed
  | replayed

def Standing.isLive : Standing → Bool
  | .live => true
  | _ => false

def Standing.result : Standing → Option IdempotencyResultReference
  | .completed result => some result
  | _ => none

theorem standing_completed {s : Standing} {result : IdempotencyResultReference}
    (h : s.result = some result) : s = .completed result := by
  cases s <;> cases h
  rfl

structure Held where
  key : IdempotencyKey
  reservation : IdempotencyReservation
  standing : Standing

structure Clients where
  records : Records
  held : List Held

def Clients.start : Clients := ⟨Table.empty,[]⟩

/-- `k` is the position of a reservation among all that were handed out. -/
inductive ClientOp where
  | reserve (request : ReserveRequest)
  | complete (k : ℕ) (result : IdempotencyResultReference) (now : Time)
  | fail (k : ℕ) (now : Time)

def isReserved (t : Records) (recordId : UUID7) : Bool :=
  t.rows.any fun r => r.id == recordId && r.status == .reserved

def overtake (t : Records) (taken : IdempotencyReservation) (h : Held) : Held :=
  if !taken.isReplay && isReserved t taken.recordId &&
      h.reservation.recordId == taken.recordId && h.standing.isLive then
    {h with standing := .overtaken}
  else h

def handOut (q : ReserveRequest) (reservation : IdempotencyReservation) : Held where
  key := requestKey q
  reservation := reservation
  standing := if reservation.isReplay then .replayed else .live

/-- An identifier is never drawn twice. -/
def clientStep : ClientOp → Clients → Clients
  | .reserve q, c =>
    if c.records.rows.any fun r => r.id == q.newId then c
    else
      match reserve q c.records with
      | .error _ => c
      | .ok (reservation,t) =>
        ⟨t,c.held.map (overtake c.records reservation) ++ [handOut q reservation]⟩
  | .complete k result now, c =>
    match c.held[k]? with
    | none => c
    | some h =>
      match complete h.reservation result now c.records with
      | .error _ => c
      | .ok (_,t) => ⟨t,c.held.set k {h with standing := .completed result}⟩
  | .fail k now, c =>
    match c.held[k]? with
    | none => c
    | some h =>
      match fail h.reservation now c.records with
      | .error _ => c
      | .ok (_,t) => ⟨t,c.held.set k {h with standing := .failed}⟩

inductive ClientEffect (c : Clients) : ClientOp → Clients → Prop where
  | unchanged (op : ClientOp) : ClientEffect c op c
  | handedOut (q : ReserveRequest) (reservation : IdempotencyReservation) (t : Records)
      (operation : operationOk q.operation = true) (fresh : ∀ r ∈ c.records, r.id ≠ q.newId)
      (effect : ReserveEffect q c.records reservation t) :
      ClientEffect c (.reserve q)
        ⟨t,c.held.map (overtake c.records reservation) ++ [handOut q reservation]⟩
  | completed (k : ℕ) (result : IdempotencyResultReference) (now : Time)
      (h : Held) (resultType : String) (r : IdempotencyRecordModel) (t : Records)
      (held : c.held[k]? = some h) (serial : serializeResultType result = .ok resultType)
      (guard : reservedFor h.reservation.recordId h.reservation.requestFingerprint r = true)
      (row : Replaced r (completedRecord resultType result.value.resultId now r) c.records t) :
      ClientEffect c (.complete k result now)
        ⟨t,c.held.set k {h with standing := .completed result}⟩
  | failed (k : ℕ) (now : Time) (h : Held) (r : IdempotencyRecordModel)
      (t : Records) (held : c.held[k]? = some h) (first : h.reservation.isReplay = false)
      (guard : reservedFor h.reservation.recordId h.reservation.requestFingerprint r = true)
      (row : Replaced r (failedRecord now r) c.records t) :
      ClientEffect c (.fail k now) ⟨t,c.held.set k {h with standing := .failed}⟩

theorem clientStep_effect (op : ClientOp) (c : Clients) :
    ClientEffect c op (clientStep op c) := by
  cases op with
  | reserve q =>
    simp only [clientStep]
    split
    · exact .unchanged _
    rename_i hfresh
    split
    · exact .unchanged _
    rename_i reservation t h
    have hids : ∀ r ∈ c.records, r.id ≠ q.newId := by
      simpa [mem_rows] using hfresh
    obtain ⟨hop,heff⟩ := reserve_effect hids h
    exact .handedOut q reservation t hop hids heff
  | complete k result now =>
    simp only [clientStep]
    split
    · exact .unchanged _
    rename_i h hk
    split
    · exact .unchanged _
    rename_i t ht
    obtain ⟨-,resultType,r,hserial,hguard,hrow⟩ := complete_effect ht
    exact .completed k result now h resultType r t hk hserial hguard hrow
  | fail k now =>
    simp only [clientStep]
    split
    · exact .unchanged _
    rename_i h hk
    split
    · exact .unchanged _
    rename_i t ht
    obtain ⟨hplay,r,hguard,hrow⟩ := fail_effect ht
    exact .failed k now h r t hk (by simp [IdempotencyReservation.isReplay,hplay]) hguard hrow

/-- A record keeps its key and its fingerprint; a completed one keeps everything. -/
def RecordNext (r r' : IdempotencyRecordModel) : Prop :=
  r' = r ∨ r.status ≠ .completed ∧ recordKey r' = recordKey r ∧
    r'.requestFingerprint = r.requestFingerprint

theorem recordNext_refl (r : IdempotencyRecordModel) : RecordNext r r := Or.inl rfl

theorem effect_records {op : ClientOp} {c c' : Clients} (h : ClientEffect c op c') :
    Evolves RecordNext (fun _ => True) c.records c'.records := by
  cases h with
  | unchanged => exact evolves_refl recordNext_refl _
  | handedOut q reservation t operation fresh effect =>
    cases effect with
    | inserted t' new => exact evolves_inserted recordNext_refl trivial new
    | replayed r result mem key fingerprint completed =>
      exact evolves_refl recordNext_refl _
    | restarted r t' key fingerprint status row =>
      have hne : r.status ≠ .completed := by
        rcases status with hs | ⟨hs,-⟩ <;> simp [hs]
      have hnext : RecordNext r (restartedRecord q.prepared.requestFingerprint
          (q.now+q.service.value.ttl) r) := Or.inr ⟨hne,rfl,fingerprint.symm⟩
      exact evolves_replaced recordNext_refl hnext row
  | completed k result now h resultType r t held serial guard row =>
    have hs := (reservedFor_fields guard).2.1
    have hnext : RecordNext r (completedRecord resultType result.value.resultId now r) :=
      Or.inr ⟨by simp [hs],rfl,rfl⟩
    exact evolves_replaced recordNext_refl hnext row
  | failed k now h r t held first guard row =>
    have hs := (reservedFor_fields guard).2.1
    have hnext : RecordNext r (failedRecord now r) := Or.inr ⟨by simp [hs],rfl,rfl⟩
    exact evolves_replaced recordNext_refl hnext row

def RecordsFinal (c c' : Clients) : Prop :=
  ∀ r ∈ c.records, r.status = .completed → r ∈ c'.records

instance : Std.Refl RecordsFinal := ⟨fun _ _ hr _ => hr⟩

instance : IsTrans Clients RecordsFinal where
  trans := fun _ _ _ h k r hr hs => k r (h r hr hs) hs

theorem step_final (op : ClientOp) (c : Clients) : RecordsFinal c (clientStep op c) := by
  intro r hr hs
  obtain ⟨r',hr',-,hn⟩ := (effect_records (clientStep_effect op c)).kept r hr
  rcases hn with rfl | ⟨hne,-⟩
  · exact hr'
  · exact absurd hs hne

theorem run_final (ops : List ClientOp) (c : Clients) :
    RecordsFinal c (run clientStep ops c) :=
  run_related step_final ops c

structure OnRecord (t : Records) (h : Held) (r : IdempotencyRecordModel) : Prop where
  mem : r ∈ t
  id : r.id = h.reservation.recordId
  key : recordKey r = h.key
  fingerprint : r.requestFingerprint = h.reservation.requestFingerprint

variable {t : Records} {held : List Held} {q : ReserveRequest}
  {reservation : IdempotencyReservation}

theorem recordKey_unique {r s : IdempotencyRecordModel} (hr : r ∈ t) (hs : s ∈ t)
    (h : recordKey r = recordKey s) : r = s := by
  simp only [recordKey,scopeOf,IdempotencyKey.mk.injEq,IdempotencyScopeFields.mk.injEq] at h
  obtain ⟨⟨h₁,h₂,-⟩,h₃,h₄⟩ := h
  exact eq_of_clash hr hs (by simp [idempotencyRecords,h₁,h₂,h₃,h₄])

theorem overtake_same (t : Records) (taken : IdempotencyReservation) (h : Held) :
    (overtake t taken h).key = h.key ∧ (overtake t taken h).reservation = h.reservation := by
  unfold overtake
  split <;> exact ⟨rfl,rfl⟩

theorem overtake_live {taken : IdempotencyReservation} {h : Held}
    (hl : (overtake t taken h).standing.isLive = true) : h.standing.isLive = true ∧
      (taken.isReplay = false → isReserved t taken.recordId = true →
        h.reservation.recordId ≠ taken.recordId) := by
  unfold overtake at hl
  split at hl
  · cases hl
  · rename_i hcond
    refine ⟨hl,fun hplay hres hid => hcond ?_⟩
    simp [hplay,hres,hid,hl]

theorem overtake_completed {taken : IdempotencyReservation} {h : Held}
    {result : IdempotencyResultReference} (hc : (overtake t taken h).standing = .completed result) :
    h.standing = .completed result := by
  unfold overtake at hc
  split at hc
  · cases hc
  · exact hc

theorem handedOut_get {f : Held → Held} {new h : Held} {i : ℕ}
    (hi : (held.map f ++ [new])[i]? = some h) :
    (∃ x, held[i]? = some x ∧ h = f x) ∨ i = held.length ∧ h = new := by
  by_cases hlt : i < held.length
  · left
    rw [List.getElem?_append_left (by simpa using hlt),List.getElem?_map] at hi
    obtain ⟨x,hx,rfl⟩ := Option.map_eq_some_iff.mp hi
    exact ⟨x,hx,rfl⟩
  · right
    rw [List.getElem?_append_right (by simpa using hlt),List.length_map] at hi
    have hz : i-held.length = 0 := by
      by_contra hne
      rw [List.getElem?_eq_none (by simp; omega)] at hi
      cases hi
    rw [hz] at hi
    simp only [List.getElem?_cons_zero,Option.some.injEq] at hi
    exact ⟨by omega,hi.symm⟩

theorem ended_get {new h : Held} {i k : ℕ} (hi : (held.set k new)[i]? = some h) :
    (i ≠ k ∧ held[i]? = some h) ∨ i = k ∧ h = new := by
  rw [List.getElem?_set] at hi
  split at hi
  · rename_i hk
    split at hi
    · simp only [Option.some.injEq] at hi
      exact Or.inr ⟨hk.symm,hi.symm⟩
    · cases hi
  · rename_i hk
    exact Or.inl ⟨Ne.symm hk,hi⟩

structure Sound (c : Clients) : Prop where
  record : ∀ (i : ℕ) (h : Held), c.held[i]? = some h → ∃ r, OnRecord c.records h r
  operation : ∀ (i : ℕ) (h : Held), c.held[i]? = some h →
    operationOk h.key.operation = true
  completed : ∀ (i : ℕ) (h : Held) (result : IdempotencyResultReference),
    c.held[i]? = some h → h.standing = .completed result →
    ∃ r, OnRecord c.records h r ∧ r.status = .completed ∧
      storedResult r = .ok (some result)
  once : ∀ (i j : ℕ) (h h' : Held) (result result' : IdempotencyResultReference),
    c.held[i]? = some h → c.held[j]? = some h' → h.standing = .completed result →
    h'.standing = .completed result' → h.key = h'.key → i = j

theorem onRecord_next {op : ClientOp} {c c' : Clients} (heff : ClientEffect c op c')
    {h : Held} {r : IdempotencyRecordModel} (hr : OnRecord c.records h r) :
    ∃ r', OnRecord c'.records h r' ∧ (r.status = .completed → r' = r) := by
  obtain ⟨r',hr',hid,hn⟩ := (effect_records heff).kept r hr.mem
  refine ⟨r',⟨hr',hid.trans hr.id,?_,?_⟩,?_⟩
  · rcases hn with rfl | ⟨-,hk,-⟩
    · exact hr.key
    · exact hk.trans hr.key
  · rcases hn with rfl | ⟨-,-,hf⟩
    · exact hr.fingerprint
    · exact hf.trans hr.fingerprint
  · intro hs
    rcases hn with rfl | ⟨hne,-⟩
    · rfl
    · exact absurd hs hne

theorem handedOut_record {t t' : Records} (h : ReserveEffect q t reservation t') :
    ∃ r, OnRecord t' (handOut q reservation) r ∧
      (reservation.isReplay = false → r.status = .reserved) := by
  cases h with
  | inserted t' new =>
    exact ⟨_,⟨(inserted_mem new).mpr (Or.inl rfl),rfl,rfl,rfl⟩,fun _ => rfl⟩
  | replayed r result mem key fingerprint completed =>
    refine ⟨r,⟨mem,rfl,key,fingerprint⟩,fun hplay => ?_⟩
    cases hplay
  | restarted r t' key fingerprint status row =>
    exact ⟨_,⟨(replaced_mem row).mpr (Or.inl rfl),rfl,key,rfl⟩,fun _ => rfl⟩

theorem replaced_completed {r r' : IdempotencyRecordModel} {t t' : Records}
    (h : Replaced r r' t t') (hr : r.status ≠ .completed) :
    ∀ x ∈ t, x.status = .completed → x ∈ t' := by
  intro x hx hs
  refine (replaced_mem h).mpr (Or.inr ⟨hx,fun hkey => ?_⟩)
  rw [eq_of_key hx h.mem hkey] at hs
  exact hr hs

theorem reserve_completed_kept {t t' : Records} (h : ReserveEffect q t reservation t') :
    ∀ x ∈ t, x.status = .completed → x ∈ t' := by
  cases h with
  | inserted t' new => exact fun x hx _ => (inserted_mem new).mpr (Or.inr hx)
  | replayed r result mem key fingerprint completed => exact fun x hx _ => hx
  | restarted r t' key fingerprint status row =>
    apply replaced_completed row
    rcases status with hs | ⟨hs,-⟩ <;> simp [hs]

/-- The store has a completed record of the key that answers with the result. -/
structure AnsweredWith (t : Records) (key : IdempotencyKey) (fingerprint : Digest)
    (result : IdempotencyResultReference) (r : IdempotencyRecordModel) : Prop where
  mem : r ∈ t
  key : recordKey r = key
  completed : r.status = .completed
  fingerprint : r.requestFingerprint = fingerprint
  result : storedResult r = .ok (some result)

theorem complete_answered {t₁ t₂ t₃ : Records} {result : IdempotencyResultReference} {now : Time}
    (hreserve : ReserveEffect q t₁ reservation t₂)
    (hcomplete : complete reservation result now t₂ = .ok ((),t₃)) :
    (∃ r, AnsweredWith t₃ (requestKey q) q.prepared.requestFingerprint result r) ∧
    ∀ x ∈ t₁, x.status = .completed → x ∈ t₃ := by
  obtain ⟨hreplay,resultType,r,hserial,hguard,hrow⟩ := complete_effect hcomplete
  obtain ⟨hid,hstatus,hfp⟩ := reservedFor_fields hguard
  obtain ⟨x,hx,-⟩ := handedOut_record hreserve
  obtain rfl : r = x := eq_of_key hrow.mem hx.mem (hid.trans hx.id.symm)
  have hfingerprint : reservation.requestFingerprint = q.prepared.requestFingerprint := by
    cases hreserve <;> rfl
  constructor
  · refine ⟨_,(replaced_mem hrow).mpr (Or.inl rfl),hx.key,rfl,hfp.trans hfingerprint,?_⟩
    have hread := deserialize_serialize result resultType hserial
    simp only [storedResult,completedRecord,hread]
    rfl
  · intro y hy hs
    exact replaced_completed hrow (by simp [hstatus]) y
      (reserve_completed_kept hreserve y hy hs) hs

theorem step_sound (op : ClientOp) (c : Clients) (hc : Sound c) :
    Sound (clientStep op c) := by
  have heff := clientStep_effect op c
  generalize clientStep op c = c' at heff
  have hkeep : ∀ {h r}, OnRecord c.records h r →
      ∃ r', OnRecord c'.records h r' ∧ (r.status = .completed → r' = r) :=
    fun hr => onRecord_next heff hr
  have hdone : ∀ {h : Held} {result}, (∃ r, OnRecord c.records h r ∧ r.status = .completed ∧
      storedResult r = .ok (some result)) → ∃ r, OnRecord c'.records h r ∧
      r.status = .completed ∧ storedResult r = .ok (some result) := by
    rintro h result ⟨r,hr,hs,hres⟩
    obtain ⟨r',hr',hsame⟩ := hkeep hr
    obtain rfl := hsame hs
    exact ⟨r',hr',hs,hres⟩
  cases heff with
  | unchanged => exact hc
  | handedOut q reservation t operation fresh effect =>
    obtain ⟨new,hnew,-⟩ := handedOut_record effect
    have hplain : ∀ result, (handOut q reservation).standing ≠ .completed result := by
      intro result hs
      simp only [handOut] at hs
      split at hs <;> cases hs
    constructor
    · intro i h hi
      rcases handedOut_get hi with ⟨x,hx,rfl⟩ | ⟨-,rfl⟩
      · obtain ⟨hk,hres⟩ := overtake_same c.records reservation x
        obtain ⟨r,hr⟩ := hc.record i x hx
        obtain ⟨r',hr',-⟩ := hkeep hr
        exact ⟨r',⟨hr'.mem,hres ▸ hr'.id,hk ▸ hr'.key,hres ▸ hr'.fingerprint⟩⟩
      · exact ⟨new,hnew⟩
    · intro i h hi
      rcases handedOut_get hi with ⟨x,hx,rfl⟩ | ⟨-,rfl⟩
      · rw [(overtake_same c.records reservation x).1]
        exact hc.operation i x hx
      · exact operation
    · intro i h result hi hs
      rcases handedOut_get hi with ⟨x,hx,rfl⟩ | ⟨-,rfl⟩
      · obtain ⟨hk,hres⟩ := overtake_same c.records reservation x
        obtain ⟨r,hr,hrs,hrr⟩ := hdone (hc.completed i x result hx (overtake_completed hs))
        exact ⟨r,⟨hr.mem,hres ▸ hr.id,hk ▸ hr.key,hres ▸ hr.fingerprint⟩,hrs,hrr⟩
      · exact absurd hs (hplain result)
    · intro i j h h' result result' hi hj hs hs' hkey
      rcases handedOut_get hi with ⟨x,hx,rfl⟩ | ⟨-,rfl⟩
      · rcases handedOut_get hj with ⟨y,hy,rfl⟩ | ⟨-,rfl⟩
        · rw [(overtake_same c.records reservation x).1,
            (overtake_same c.records reservation y).1] at hkey
          exact hc.once i j x y result result' hx hy (overtake_completed hs)
            (overtake_completed hs') hkey
        · exact absurd hs' (hplain result')
      · exact absurd hs (hplain result)
  | completed k result now h resultType r t held serial guard row =>
    obtain ⟨hid,hst,hfp⟩ := reservedFor_fields guard
    obtain ⟨s,hs⟩ := hc.record k h held
    obtain rfl : s = r := eq_of_key hs.mem row.mem (hs.id.trans hid.symm)
    have hmem := (replaced_mem row).mpr (Or.inl rfl)
    have hstored : storedResult (completedRecord resultType result.value.resultId now s) =
        .ok (some result) := by
      simp only [storedResult,completedRecord,deserialize_serialize result resultType serial]
      rfl
    -- another completed reservation of the key would have its record completed
    have hother : ∀ (i : ℕ) (x : Held) (result' : IdempotencyResultReference),
        c.held[i]? = some x → x.standing = .completed result' → x.key ≠ h.key := by
      intro i x result' hx hxs hk
      obtain ⟨y,hy,hys,-⟩ := hc.completed i x result' hx hxs
      obtain rfl : y = s := recordKey_unique hy.mem hs.mem
        (hy.key.trans (hk.trans hs.key.symm))
      rw [hst] at hys
      cases hys
    constructor
    · intro i x hi
      rcases ended_get hi with ⟨-,hx⟩ | ⟨-,rfl⟩
      · obtain ⟨y,hy⟩ := hc.record i x hx
        obtain ⟨y',hy',-⟩ := hkeep hy
        exact ⟨y',hy'⟩
      · exact ⟨_,⟨hmem,hs.id,hs.key,hs.fingerprint⟩⟩
    · intro i x hi
      rcases ended_get hi with ⟨-,hx⟩ | ⟨-,rfl⟩
      · exact hc.operation i x hx
      · exact hc.operation k h held
    · intro i x result' hi hxs
      rcases ended_get hi with ⟨-,hx⟩ | ⟨-,rfl⟩
      · exact hdone (hc.completed i x result' hx hxs)
      · cases hxs
        exact ⟨_,⟨hmem,hs.id,hs.key,hs.fingerprint⟩,rfl,hstored⟩
    · intro i j x y result₁ result₂ hi hj hxs hys hkey
      rcases ended_get hi with ⟨-,hx⟩ | ⟨rfl,rfl⟩
      · rcases ended_get hj with ⟨-,hy⟩ | ⟨rfl,rfl⟩
        · exact hc.once i j x y result₁ result₂ hx hy hxs hys hkey
        · exact absurd hkey (hother i x result₁ hx hxs)
      · rcases ended_get hj with ⟨-,hy⟩ | ⟨rfl,rfl⟩
        · exact absurd hkey.symm (hother j y result₂ hy hys)
        · rfl
  | failed k now h r t held first guard row =>
    have hcase : ∀ {i x}, (c.held.set k {h with standing := .failed})[i]? = some x →
        (c.held[i]? = some x) ∨ (x = {h with standing := .failed}) := fun hi =>
      (ended_get hi).imp And.right And.right
    constructor
    · intro i x hi
      rcases hcase hi with hx | rfl
      · obtain ⟨y,hy⟩ := hc.record i x hx
        obtain ⟨y',hy',-⟩ := hkeep hy
        exact ⟨y',hy'⟩
      · obtain ⟨y,hy⟩ := hc.record k h held
        obtain ⟨y',hy',-⟩ := hkeep hy
        exact ⟨y',⟨hy'.mem,hy'.id,hy'.key,hy'.fingerprint⟩⟩
    · intro i x hi
      rcases hcase hi with hx | rfl
      · exact hc.operation i x hx
      · exact hc.operation k h held
    · intro i x result hi hxs
      rcases hcase hi with hx | rfl
      · exact hdone (hc.completed i x result hx hxs)
      · cases hxs
    · intro i j x y result result' hi hj hxs hys hkey
      rcases hcase hi with hx | rfl
      · rcases hcase hj with hy | rfl
        · exact hc.once i j x y result result' hx hy hxs hys hkey
        · cases hys
      · cases hxs

theorem run_sound (ops : List ClientOp) : Sound (run clientStep ops .start) := by
  apply run_invariant step_sound
  constructor <;> simp [Clients.start]

/-- A client fails a reservation only while it is live: one that was taken over
or ended is refused by the record, or not failed. -/
def FailsLive (op : ClientOp) (c : Clients) : Prop :=
  match op with
  | .fail k _ => ∀ h, c.held[k]? = some h → h.reservation.isReplay = false →
      (∃ r ∈ c.records,
        reservedFor h.reservation.recordId h.reservation.requestFingerprint r = true) →
      h.standing.isLive = true
  | _ => True

structure Exclusive (c : Clients) : Prop where
  sound : Sound c
  alone : ∀ (i j : ℕ) (h h' : Held), c.held[i]? = some h → c.held[j]? = some h' →
    h.standing.isLive = true → h'.standing.isLive = true → h.key = h'.key → i = j
  idle : ∀ (i : ℕ) (h : Held) (r : IdempotencyRecordModel), c.held[i]? = some h →
    h.standing.isLive = true → OnRecord c.records h r → r.status ≠ .failed

theorem failed_old {c : Clients} (h : ReserveEffect q c.records reservation t)
    {r : IdempotencyRecordModel} (hr : r ∈ t) (hs : r.status = .failed) : r ∈ c.records := by
  cases h with
  | inserted t' new =>
    rcases (inserted_mem new).mp hr with rfl | hold
    · cases hs
    · exact hold
  | replayed s result mem key fingerprint completed => exact hr
  | restarted s t' key fingerprint status row =>
    rcases (replaced_mem row).mp hr with rfl | ⟨hold,-⟩
    · cases hs
    · exact hold

theorem handedOut_alone {c : Clients} (hc : Exclusive c)
    (heff : ReserveEffect q c.records reservation t) (hplay : reservation.isReplay = false) {i : ℕ}
    {x : Held} (hx : c.held[i]? = some x)
    (hl : (overtake c.records reservation x).standing.isLive = true) :
    x.key ≠ requestKey q := by
  intro hkey
  obtain ⟨hlive,hleft⟩ := overtake_live hl
  obtain ⟨s,hs⟩ := hc.sound.record i x hx
  cases heff with
  | inserted t' new =>
    have hmem := (inserted_mem new).mpr (Or.inl rfl)
    have heq := recordKey_unique ((inserted_mem new).mpr (Or.inr hs.mem)) hmem
      (hs.key.trans hkey)
    have hap := inserted_fresh new hs.mem
    exact hap.1 (congrArg idempotencyRecords.key heq.symm)
  | replayed r result mem key fingerprint completed => cases hplay
  | restarted r t' key fingerprint status row =>
    obtain rfl : s = r := recordKey_unique hs.mem row.mem
      (hs.key.trans (hkey.trans key.symm))
    rcases status with hfailed | ⟨hreserved,-⟩
    · exact hc.idle i x s hx hlive hs hfailed
    · refine hleft rfl ?_ hs.id.symm
      exact List.any_eq_true.mpr ⟨s,hs.mem,by simp [hreserved]⟩

theorem step_exclusive (op : ClientOp) (c : Clients) (hg : FailsLive op c)
    (hc : Exclusive c) : Exclusive (clientStep op c) := by
  have hsound := step_sound op c hc.sound
  have heff := clientStep_effect op c
  generalize clientStep op c = c' at heff hsound
  refine ⟨hsound,?_,?_⟩
  · intro i j h h' hi hj hl hl' hkey
    cases heff with
    | unchanged => exact hc.alone i j h h' hi hj hl hl' hkey
    | handedOut q reservation t operation fresh effect =>
      have hnew : (handOut q reservation).standing.isLive = true →
          reservation.isReplay = false := by
        simp only [handOut]
        split
        · intro h
          cases h
        · rename_i hplay
          intro
          simpa using hplay
      rcases handedOut_get hi with ⟨x,hx,rfl⟩ | ⟨rfl,rfl⟩
      · rw [(overtake_same c.records reservation x).1] at hkey
        rcases handedOut_get hj with ⟨y,hy,rfl⟩ | ⟨rfl,rfl⟩
        · rw [(overtake_same c.records reservation y).1] at hkey
          exact hc.alone i j x y hx hy (overtake_live hl).1 (overtake_live hl').1 hkey
        · exact absurd hkey (handedOut_alone hc effect (hnew hl') hx hl)
      · rcases handedOut_get hj with ⟨y,hy,rfl⟩ | ⟨rfl,rfl⟩
        · rw [(overtake_same c.records reservation y).1] at hkey
          exact absurd hkey.symm (handedOut_alone hc effect (hnew hl) hy hl')
        · rfl
    | completed k result now x resultType r t held serial guard row =>
      rcases ended_get hi with ⟨-,hi⟩ | ⟨-,rfl⟩
      · rcases ended_get hj with ⟨-,hj⟩ | ⟨-,rfl⟩
        · exact hc.alone i j h h' hi hj hl hl' hkey
        · cases hl'
      · cases hl
    | failed k now x r t held first guard row =>
      rcases ended_get hi with ⟨-,hi⟩ | ⟨-,rfl⟩
      · rcases ended_get hj with ⟨-,hj⟩ | ⟨-,rfl⟩
        · exact hc.alone i j h h' hi hj hl hl' hkey
        · cases hl'
      · cases hl
  · intro i h r hi hl hr hs
    cases heff with
    | unchanged => exact hc.idle i h r hi hl hr hs
    | handedOut q reservation t operation fresh effect =>
      have hold := failed_old effect hr.mem hs
      rcases handedOut_get hi with ⟨x,hx,rfl⟩ | ⟨-,rfl⟩
      · obtain ⟨hk,hres⟩ := overtake_same c.records reservation x
        exact hc.idle i x r hx (overtake_live hl).1
          ⟨hold,hres ▸ hr.id,hk ▸ hr.key,hres ▸ hr.fingerprint⟩ hs
      · obtain ⟨s,hsr,hreserved⟩ := handedOut_record effect
        obtain rfl := eq_of_key hsr.mem hr.mem (hsr.id.trans hr.id.symm)
        have hplay : reservation.isReplay = false := by
          by_contra hne
          simp [handOut,hne,Standing.isLive] at hl
        rw [hreserved hplay] at hs
        cases hs
    | completed k result now x resultType s t held serial guard row =>
      rcases ended_get hi with ⟨-,hi⟩ | ⟨-,rfl⟩
      · rcases (replaced_mem row).mp hr.mem with rfl | ⟨hold,-⟩
        · cases hs
        · exact hc.idle i h r hi hl ⟨hold,hr.id,hr.key,hr.fingerprint⟩ hs
      · cases hl
    | failed k now x s t held first guard row =>
      obtain ⟨hid,-,-⟩ := reservedFor_fields guard
      rcases ended_get hi with ⟨hne,hi⟩ | ⟨-,rfl⟩
      · rcases (replaced_mem row).mp hr.mem with rfl | ⟨hold,-⟩
        · -- the failed record was held by the only live reservation of its key
          have hlive := hg x held first ⟨s,row.mem,guard⟩
          obtain ⟨y,hy⟩ := hc.sound.record k x held
          obtain rfl : y = s := eq_of_key hy.mem row.mem (hy.id.trans hid.symm)
          have hkey : h.key = x.key := hr.key.symm.trans hy.key
          exact hne (hc.alone i k h x hi held hl hlive hkey)
        · exact hc.idle i h r hi hl ⟨hold,hr.id,hr.key,hr.fingerprint⟩ hs
      · cases hl

theorem run_exclusive (ops : List ClientOp) (hg : Along clientStep FailsLive ops .start) :
    Exclusive (run clientStep ops .start) := by
  refine guarded_invariant step_exclusive ops .start hg ⟨run_sound [],?_,?_⟩
  · simp [Clients.start]
  · simp [Clients.start]

theorem completed_decides {p q : Clients} (hp : Sound p) (hfinal : RecordsFinal p q)
    {i : ℕ} {h : Held} {result : IdempotencyResultReference} (hi : p.held[i]? = some h)
    (hs : h.standing = .completed result) (request : ReserveRequest)
    (hkey : requestKey request = h.key) (hfresh : ∀ r ∈ q.records, r.id ≠ request.newId) :
    reserve request q.records =
      if request.prepared.requestFingerprint = h.reservation.requestFingerprint then
        .ok (⟨h.reservation.recordId,h.reservation.requestFingerprint,some result⟩,q.records)
      else .error .conflict := by
  obtain ⟨r,hr,hrs,hres⟩ := hp.completed i h result hi hs
  have hmem := hfinal r hr.mem hrs
  have hop : operationOk request.operation = true := by
    have h := hp.operation i h hi
    rw [← hkey] at h
    exact h
  rw [reserve_completed hop hmem (hr.key.trans hkey.symm) (hfresh r hmem) hrs hres,
    hr.fingerprint,hr.id]
  by_cases hfp : request.prepared.requestFingerprint = h.reservation.requestFingerprint
  · rw [if_pos hfp.symm,if_pos hfp,hfp]
  · rw [if_neg (Ne.symm hfp),if_neg hfp]

/-- Between any two moments `p` and `q` of a run in which only live reservations
are failed: one live reservation at most under a key, completed records final,
one completion at most under a key, and every request after the completion
replays its result or conflicts with it. -/
theorem idempotent_execution (ops₁ ops₂ : List ClientOp)
    (hg : Along clientStep FailsLive (ops₁++ops₂) .start) :
    let p := run clientStep ops₁ .start
    let q := run clientStep ops₂ p
    (∀ (i j : ℕ) (h h' : Held), q.held[i]? = some h → q.held[j]? = some h' →
      h.standing.isLive = true → h'.standing.isLive = true → h.key = h'.key → i = j) ∧
    (∀ r ∈ p.records, r.status = .completed → r ∈ q.records) ∧
    (∀ (i j : ℕ) (h h' : Held) (result result' : IdempotencyResultReference),
      q.held[i]? = some h → q.held[j]? = some h' → h.standing = .completed result →
      h'.standing = .completed result' → h.key = h'.key → i = j) ∧
    (∀ (i : ℕ) (h : Held) (result : IdempotencyResultReference),
      p.held[i]? = some h → h.standing = .completed result →
      ∀ request, requestKey request = h.key → (∀ r ∈ q.records, r.id ≠ request.newId) →
      reserve request q.records =
        if request.prepared.requestFingerprint = h.reservation.requestFingerprint then
          .ok (⟨h.reservation.recordId,h.reservation.requestFingerprint,some result⟩,
            q.records)
        else .error .conflict) := by
  intro p q
  have hq : q = run clientStep (ops₁++ops₂) .start := (run_append clientStep ops₁ ops₂ _).symm
  have hex : Exclusive q := hq ▸ run_exclusive (ops₁++ops₂) hg
  have hfinal : RecordsFinal p q := run_final ops₂ p
  exact ⟨hex.alone,hfinal,hex.sound.once,fun i h result hi hs request hkey hfresh =>
    completed_decides (run_sound ops₁) hfinal hi hs request hkey hfresh⟩

def sampleService : Checked idempotencyServiceChecks := ⟨{},IdempotencyService.defaults_ok⟩

def sampleScope : IdempotencyScope := ⟨⟨.user,⟨0,0,1⟩,none⟩,by decide⟩

def sampleResult : IdempotencyResultReference :=
  ⟨⟨"tenant",⟨0,0,2⟩,some .changed,some 7⟩,by decide⟩

def sampleRequest (newId : BitVec 62) (now : Time) : ReserveRequest where
  service := sampleService
  scope := sampleScope
  operation := "tenant.update"
  prepared := ⟨1,2⟩
  newId := ⟨0,1,newId⟩
  now := now
  currentTimestamp := now

theorem map_get {β : Type} {f : Held → β} {l : List β} {i : ℕ} {y : β} (h : held.map f = l)
    (hy : l[i]? = some y) : ∃ x, held[i]? = some x ∧ f x = y := by
  rw [← h,List.getElem?_map] at hy
  exact Option.map_eq_some_iff.mp hy

def completedRun : List ClientOp :=
  [.reserve (sampleRequest 1 0),.complete 0 sampleResult 0]

theorem completedRun_replays : ∃ reservation,
    reserve (sampleRequest 2 0) (run clientStep completedRun .start).records =
      .ok (reservation,(run clientStep completedRun .start).records) ∧
    reservation.replay.map Checked.value = some sampleResult.value := by
  have hheld : ((run clientStep completedRun .start).held.map fun h =>
      (h.key,h.reservation.requestFingerprint,h.standing.result.map Checked.value)) =
      [(requestKey (sampleRequest 2 0),(sampleRequest 2 0).prepared.requestFingerprint,
        some sampleResult.value)] := by
    decide
  have hfresh : ∀ r ∈ (run clientStep completedRun .start).records,
      r.id ≠ (sampleRequest 2 0).newId := by
    have hids : ((run clientStep completedRun .start).records.rows.map fun r => r.id) =
        [⟨0,1,1⟩] := by decide
    intro r hr hid
    have hmem := List.mem_map_of_mem (f := fun r => r.id) hr
    rw [hids,List.mem_singleton,hid] at hmem
    revert hmem
    decide
  obtain ⟨h,hi,hfields⟩ := map_get hheld (List.getElem?_cons_zero ..)
  obtain ⟨hkey,hrest⟩ := Prod.mk.inj hfields
  obtain ⟨hfp,hresult⟩ := Prod.mk.inj hrest
  obtain ⟨result,hs,hvalue⟩ := Option.map_eq_some_iff.mp hresult
  have hdecides := (idempotent_execution completedRun [] ⟨trivial,trivial,trivial⟩).2.2.2
    0 h result hi (standing_completed hs) (sampleRequest 2 0) hkey.symm hfresh
  rw [if_pos hfp.symm] at hdecides
  exact ⟨_,hdecides,congrArg some hvalue⟩

/-- The first client fails after the second has taken over its expired record;
the third restarts the failed record beside the second. -/
def overtakenRun : List ClientOp :=
  [.reserve (sampleRequest 1 0),.reserve (sampleRequest 2 (hours 24)),.fail 0 (hours 24),
   .reserve (sampleRequest 3 (hours 24))]

theorem overtaken_two_live :
    ¬∀ (ops : List ClientOp) (i j : ℕ) (h h' : Held),
      (run clientStep ops .start).held[i]? = some h →
      (run clientStep ops .start).held[j]? = some h' → h.standing.isLive = true →
      h'.standing.isLive = true → h.key = h'.key → i = j := by
  intro halone
  have hlive : ((run clientStep overtakenRun .start).held.map fun h =>
      (h.key,h.standing.isLive)) = [(requestKey (sampleRequest 1 0),false),
      (requestKey (sampleRequest 1 0),true),(requestKey (sampleRequest 1 0),true)] := by
    decide
  obtain ⟨b,hb,hfb⟩ := map_get (i := 1) hlive rfl
  obtain ⟨c,hc,hfc⟩ := map_get (i := 2) hlive rfl
  obtain ⟨hkb,hlb⟩ := Prod.mk.inj hfb
  obtain ⟨hkc,hlc⟩ := Prod.mk.inj hfc
  have hone := halone overtakenRun 1 2 b c hb hc hlb hlc (hkb.trans hkc.symm)
  omega

end LawyerAgent.IdempotencyClients
