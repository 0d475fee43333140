import LawyerAgent.SessionService
import LawyerAgent.Relational.Run
import LawyerAgent.Relational.Evolution

/-!
# Steps of the session service

Every call is a sequence of four kinds of effect: a session is opened with the
first token of a new family, a family is closed with its session, a token is
rotated, or the identity tables change under the references to them.
-/

set_option autoImplicit false

namespace LawyerAgent.SessionSteps
open Relational Common SessionDomain SessionTables
open SessionRepository SessionService IdentityTables

variable (hmac : List UInt8 → Digest)

inductive SessionOp where
  | start (userId : UUID7) (draw : SessionDraw) (now currentTimestamp : Time)
  | refresh (rawToken : String) (draw : RefreshDraw) (now currentTimestamp : Time)
  | revoke (sessionId : UUID7) (reason : RevocationReason) (now : Time)
  | switchTenant (found : Option SessionLockLocator) (command : SwitchTenantCommand)
      (draw : SessionDraw) (now currentTimestamp : Time)
  | identity (changed : Identity)

def familyDrawn (familyId : UUID7) (db : SessionDatabase) : Bool :=
  db.tokens.rows.any fun t => t.familyId == familyId

/-- The foreign keys of sessions and tokens into the identity tables. -/
def referencesHold (db : SessionDatabase) : Bool :=
  (db.sessions.rows.all (sessionRefers · db.identity)) && db.tokens.rows.all (tokenRefers · db)

/-- A family identifier is never drawn twice, and other components change the
identity tables only under the foreign keys. -/
def sessionStep : SessionOp → SessionDatabase → SessionDatabase
  | .start userId draw now currentTimestamp, db =>
    if familyDrawn draw.familyId db then db
    else commit (start hmac userId draw now currentTimestamp) db
  | .refresh rawToken draw now currentTimestamp, db =>
    commit (refresh hmac rawToken draw now currentTimestamp) db
  | .revoke sessionId reason now, db => commit (revoke sessionId reason now) db
  | .switchTenant found command draw now currentTimestamp, db =>
    if familyDrawn draw.familyId db then db
    else commit (switchTenant hmac found command draw now currentTimestamp) db
  | .identity changed, db =>
    if referencesHold {db with identity := changed} then {db with identity := changed} else db

def noSessions (identity : Identity) : SessionDatabase := ⟨identity,.empty,.empty⟩

def tenantNamed (t : RefreshTokenRecordModel) (d : Identity) : Prop :=
  t.tenantId.all (tenantExists · d) = true

structure Opened (db db' : SessionDatabase) (s : AuthSessionModel)
    (t : RefreshTokenRecordModel) : Prop where
  session : Inserted s db.sessions db'.sessions
  token : Inserted t db.tokens db'.tokens
  identity : db'.identity = db.identity
  sessionId : t.sessionId = s.id
  family : t.familyId = s.currentFamilyId
  tenant : tenantNamed t db.identity

structure Closed (familyId sessionId : UUID7) (reason : RevocationReason) (now : Time)
    (db db' : SessionDatabase) : Prop where
  tokens : db'.tokens.rows = db.tokens.rows.map fun t =>
    if unrevokedOf familyId t then revokedToken reason now t else t
  sessions : db'.sessions.rows = db.sessions.rows.map fun s =>
    if unrevokedSession sessionId s then revokedSession reason now s else s
  identity : db'.identity = db.identity

/-- `current` is used and linked to its replacement `r`. -/
structure Rotated (current r : RefreshTokenRecordModel) (now : Time)
    (db db' : SessionDatabase) : Prop where
  present : current ∈ db.tokens
  unused : current.usedAt = none
  unrevoked : current.revokedAt = none
  family : r.familyId = current.familyId
  sessionId : r.sessionId = current.sessionId
  tenantId : r.tenantId = current.tenantId
  tokens : ∃ used added, Replaced current (usedToken now current) db.tokens used ∧
    Inserted r used added ∧
    Replaced (usedToken now current) (linkedToken r.id now (usedToken now current)) added
      db'.tokens
  session : ∃ s expiresAt, Replaced s (touchedSession now expiresAt s) db.sessions db'.sessions
  identity : db'.identity = db.identity

inductive FamilyEffect (db : SessionDatabase) : SessionDatabase → Prop where
  | opened (s : AuthSessionModel) (t : RefreshTokenRecordModel) (db' : SessionDatabase)
      (fresh : ∀ u ∈ db.tokens, u.familyId ≠ t.familyId) (effect : Opened db db' s t) :
      FamilyEffect db db'
  | closed (familyId sessionId : UUID7) (reason : RevocationReason) (now : Time)
      (db' : SessionDatabase) (effect : Closed familyId sessionId reason now db db') :
      FamilyEffect db db'
  | rotated (current r : RefreshTokenRecordModel) (now : Time) (db' : SessionDatabase)
      (effect : Rotated current r now db db') : FamilyEffect db db'
  | reidentified (changed : Identity)
      (references : referencesHold {db with identity := changed} = true) :
      FamilyEffect db {db with identity := changed}

abbrev FamilyEffects : SessionDatabase → SessionDatabase → Prop :=
  Relation.ReflTransGen FamilyEffect

variable {t : RefreshTokenRecordModel} {sessionId : UUID7} {db db' : SessionDatabase}
  {timestamp now : Time} {u : Unit} {reason : RevocationReason} {draw : SessionDraw}
  {result : SessionResult}

theorem isToken_id {tokenId : UUID7} (h : isToken tokenId t = true) :
    refreshTokenRecords.key t = tokenId := eq_of_beq h

theorem isSession_id {s : AuthSessionModel} (h : isSession sessionId s = true) :
    authSessions.key s = sessionId := eq_of_beq h

theorem addSession_ok {s : NewSession} (h : addSession s timestamp db = .ok (u,db')) :
    ∃ sessions, Inserted (sessionModel s timestamp) db.sessions sessions ∧
      db' = {db with sessions := sessions} := by
  simp only [addSession,bind_ok,zoom_ok,insertRow_ok,read_ok,require_ok] at h
  obtain ⟨_,_,⟨sessions,hs,rfl⟩,_,_,⟨-,rfl⟩,-,rfl⟩ := h
  exact ⟨sessions,hs,rfl⟩

theorem addRefresh_ok {t : NewRefreshToken} (h : addRefresh t timestamp db = .ok (u,db')) :
    ∃ tokens, Inserted (refreshModel t timestamp) db.tokens tokens ∧
      db' = {db with tokens := tokens} ∧ tenantNamed (refreshModel t timestamp) db.identity := by
  simp only [addRefresh,bind_ok,zoom_ok,insertRow_ok,read_ok,require_ok] at h
  obtain ⟨_,_,⟨tokens,ht,rfl⟩,_,_,⟨rfl,rfl⟩,hrefers,rfl⟩ := h
  simp only [tokenRefers,Bool.and_eq_true] at hrefers
  exact ⟨tokens,ht,rfl,hrefers.1.1.2⟩

theorem markRefreshUsed_ok {tokenId : UUID7} (h : markRefreshUsed tokenId now db = .ok (u,db')) :
    ∃ t tokens, t.id = tokenId ∧ Replaced t (usedToken now t) db.tokens tokens ∧
      db' = {db with tokens := tokens} := by
  simp only [markRefreshUsed,bind_ok,zoom_ok,require_ok] at h
  obtain ⟨n,_,⟨tokens,hupdate,rfl⟩,hn,rfl⟩ := h
  obtain ⟨h0,-⟩ | ⟨-,t,hid,hrow⟩ :=
    updateRows_keyed hupdate tokenId (fun _ => isToken_id) (fun _ => rfl)
  · omega
  · exact ⟨t,tokens,isToken_id hid,hrow,rfl⟩

theorem linkRefreshReplacement_ok {tokenId replacementId : UUID7}
    (h : linkRefreshReplacement tokenId replacementId now db = .ok (u,db')) :
    ∃ t tokens, t.id = tokenId ∧ Replaced t (linkedToken replacementId now t) db.tokens tokens ∧
      db' = {db with tokens := tokens} := by
  simp only [linkRefreshReplacement,bind_ok,zoom_ok,require_ok,read_ok] at h
  obtain ⟨n,_,⟨tokens,hupdate,rfl⟩,_,_,⟨hn,rfl⟩,_,_,⟨-,rfl⟩,-,rfl⟩ := h
  obtain ⟨h0,-⟩ | ⟨-,t,hid,hrow⟩ :=
    updateRows_keyed hupdate tokenId (fun _ => isToken_id) (fun _ => rfl)
  · omega
  · exact ⟨t,tokens,isToken_id hid,hrow,rfl⟩

theorem touchSession_ok {now expiresAt : Time}
    (h : touchSession sessionId now expiresAt db = .ok (u,db')) :
    ∃ s sessions, Replaced s (touchedSession now expiresAt s) db.sessions sessions ∧
      db' = {db with sessions := sessions} := by
  simp only [touchSession,bind_ok,zoom_ok,require_ok] at h
  obtain ⟨n,_,⟨sessions,hupdate,rfl⟩,hn,rfl⟩ := h
  obtain ⟨h0,-⟩ | ⟨-,s,-,hrow⟩ :=
    updateRows_keyed hupdate sessionId (fun _ => isSession_id) (fun _ => rfl)
  · omega
  · exact ⟨s,sessions,hrow,rfl⟩

theorem revokeBoth_ok {familyId sessionId : UUID7}
    (h : revokeBoth familyId sessionId reason now db = .ok (u,db')) :
    Closed familyId sessionId reason now db db' := by
  simp only [revokeBoth,revokeFamily,revokeSession,bind_ok,zoom_ok,updateRows_ok,pure_ok] at h
  obtain ⟨_,_,⟨_,_,⟨tokens,⟨-,ht⟩,rfl⟩,-,rfl⟩,_,_,⟨sessions,⟨-,hs⟩,rfl⟩,-,rfl⟩ := h
  exact ⟨ht,hs,rfl⟩

theorem revokeBoth_succeeds (familyId sessionId : UUID7) (reason : RevocationReason) (now : Time)
    (db : SessionDatabase) : ∃ db', revokeBoth familyId sessionId reason now db = .ok ((),db') := by
  obtain ⟨tokens,ht⟩ := updateRows_succeeds SessionFailure.integrityError
    (p := unrevokedOf familyId) (f := revokedToken reason now) db.tokens
    fun t hmem _ => ⟨checked (r := t) hmem,rfl,fun _ => rfl,fun _ => rfl⟩
  obtain ⟨sessions,hs⟩ := updateRows_succeeds SessionFailure.integrityError
    (p := unrevokedSession sessionId) (f := revokedSession reason now) db.sessions
    fun s hmem _ => ⟨checked (r := s) hmem,rfl,fun _ => rfl,fun _ => rfl⟩
  refine ⟨{db with tokens := tokens, sessions := sessions},?_⟩
  simp only [revokeBoth,revokeFamily,revokeSession,bind_ok,zoom_ok,pure_ok]
  exact ⟨(),{db with tokens := tokens},⟨_,_,⟨tokens,ht,rfl⟩,trivial,rfl⟩,
    _,_,⟨sessions,hs,rfl⟩,trivial,rfl⟩

theorem addMaterial_ok {s : NewSession}
    (h : addMaterial hmac s draw now timestamp db = .ok (result,db')) :
    Opened db db' (sessionModel s timestamp)
      (refreshModel (newRefresh hmac s draw now) timestamp) := by
  simp only [addMaterial,bind_ok,ofExcept_ok,pure_ok] at h
  obtain ⟨access,_,⟨-,rfl⟩,_,db₁,hs,_,db₂,ht,-,rfl⟩ := h
  obtain ⟨sessions,hsession,rfl⟩ := addSession_ok hs
  obtain ⟨tokens,htoken,rfl,htenant⟩ := addRefresh_ok ht
  exact ⟨hsession,htoken,rfl,rfl,rfl,htenant⟩

theorem refreshIsCurrent_iff (h : refreshIsCurrent t now = true) :
    t.usedAt = none ∧ t.revokedAt = none := by
  simp only [refreshIsCurrent,Bool.and_eq_true,Option.isNone_iff_eq_none] at h
  exact ⟨h.1.1.2,h.1.1.1⟩

theorem rotate_ok {current : RefreshTokenRecordModel} {state : SessionValidationState}
    {draw : RefreshDraw} {outcome : RefreshOutcome} (hmem : current ∈ db.tokens)
    (hcurrent : refreshIsCurrent current now = true)
    (h : rotate hmac current state draw now timestamp db = .ok (outcome,db')) :
    Rotated current (refreshModel (replacement hmac current draw now) timestamp) now db db' := by
  simp only [rotate,bind_ok,ofExcept_ok,pure_ok] at h
  obtain ⟨_,db₁,hused,_,db₂,hadd,_,db₃,hlink,_,db₄,htouch,_,_,⟨-,rfl⟩,-,rfl⟩ := h
  obtain ⟨t,used,hid,hrow,rfl⟩ := markRefreshUsed_ok hused
  obtain ⟨added,hadded,rfl,-⟩ := addRefresh_ok hadd
  obtain ⟨u,linked,huid,hlinked,rfl⟩ := linkRefreshReplacement_ok hlink
  obtain ⟨s,sessions,htouched,rfl⟩ := touchSession_ok htouch
  obtain rfl : t = current := eq_of_key hrow.mem hmem hid
  -- the linked row is the used one: both carry the key of `current`
  have hin : usedToken now t ∈ added :=
    (inserted_mem hadded).mpr (Or.inr ((replaced_mem hrow).mpr (Or.inl rfl)))
  obtain rfl : u = usedToken now t := eq_of_key hlinked.mem hin huid
  obtain ⟨hunused,hunrevoked⟩ := refreshIsCurrent_iff hcurrent
  exact ⟨hmem,hunused,hunrevoked,rfl,rfl,rfl,⟨used,added,hrow,hadded,hlinked⟩,
    ⟨s,_,htouched⟩,rfl⟩

theorem lockCurrent_ok {tokenHash : Digest} {o : Option RefreshTokenRecordModel}
    (h : lockCurrent tokenHash db = .ok (o,db')) :
    db' = db ∧ ∀ t, o = some t → t ∈ db.tokens ∧ t.tokenHash = tokenHash := by
  simp only [lockCurrent,bind_ok,read_ok] at h
  obtain ⟨locator,_,⟨-,rfl⟩,h⟩ := h
  cases locator with
  | none =>
    simp only [pure_ok] at h
    obtain ⟨rfl,rfl⟩ := h
    exact ⟨rfl,fun _ hnone => absurd hnone (Option.some_ne_none _).symm⟩
  | some locator =>
    simp only [bind_ok,read_ok] at h
    obtain ⟨acquired,_,⟨-,rfl⟩,h⟩ := h
    cases acquired with
    | false =>
      simp only [Bool.false_eq_true,if_false,pure_ok] at h
      obtain ⟨rfl,rfl⟩ := h
      exact ⟨rfl,fun _ hnone => absurd hnone (Option.some_ne_none _).symm⟩
    | true =>
      simp only [if_true,bind_ok,read_ok,pure_ok] at h
      obtain ⟨current,_,⟨rfl,rfl⟩,rfl,rfl⟩ := h
      refine ⟨rfl,fun t ht => ?_⟩
      obtain ⟨hlock,-⟩ := Option.filter_eq_some_iff.mp ht
      obtain ⟨hmem,hhash⟩ := selectRow_some hlock
      exact ⟨hmem,eq_of_beq hhash⟩

theorem refresh_effect {rawToken : String} {draw : RefreshDraw} {outcome : RefreshOutcome}
    (h : refresh hmac rawToken draw now timestamp db = .ok (outcome,db')) :
    (db' = db ∧ outcome = .invalid) ∨
    ∃ current ∈ db.tokens, current.tokenHash = refreshHash hmac rawToken ∧
      ((outcome = .replayed ∨ outcome = .invalid) ∧
        (∃ reason, Closed current.familyId current.sessionId reason now db db') ∨
      ∃ r, Rotated current r now db db') := by
  simp only [refresh,bind_ok] at h
  obtain ⟨o,_,hlock,h⟩ := h
  obtain ⟨rfl,hsome⟩ := lockCurrent_ok hlock
  cases o with
  | none =>
    simp only [pure_ok] at h
    exact Or.inl ⟨h.2.symm,h.1.symm⟩
  | some current =>
    obtain ⟨hmem,hhash⟩ := hsome current rfl
    refine Or.inr ⟨current,hmem,hhash,?_⟩
    by_cases hused : current.usedAt.isSome
    · simp only [if_pos hused,bind_ok,pure_ok] at h
      obtain ⟨_,_,hclose,rfl,rfl⟩ := h
      exact Or.inl ⟨Or.inl rfl,_,revokeBoth_ok hclose⟩
    simp only [if_neg hused] at h
    by_cases hcurrent : refreshIsCurrent current now = false
    · simp only [if_pos hcurrent,bind_ok,pure_ok] at h
      obtain ⟨_,_,hclose,rfl,rfl⟩ := h
      exact Or.inl ⟨Or.inr rfl,_,revokeBoth_ok hclose⟩
    simp only [if_neg hcurrent,bind_ok,read_ok] at h
    obtain ⟨state,_,⟨-,rfl⟩,h⟩ := h
    generalize Option.filter _ state = authoritative at h
    cases authoritative with
    | none =>
      simp only [bind_ok,pure_ok] at h
      obtain ⟨_,_,hclose,rfl,rfl⟩ := h
      exact Or.inl ⟨Or.inr rfl,_,revokeBoth_ok hclose⟩
    | some state =>
      exact Or.inr ⟨_,rotate_ok hmac hmem (Bool.not_eq_false _ ▸ hcurrent) h⟩

theorem start_effect {userId : UUID7}
    (h : start hmac userId draw now timestamp db = .ok (result,db')) :
    ∃ s t, t.familyId = draw.familyId ∧ Opened db db' s t := by
  simp only [start,bind_ok,read_ok,orFail_ok,require_ok] at h
  obtain ⟨_,_,⟨-,rfl⟩,_,_,⟨-,rfl⟩,_,_,⟨-,rfl⟩,h⟩ := h
  exact ⟨_,_,rfl,addMaterial_ok hmac h⟩

theorem revoke_effect (h : revoke sessionId reason now db = .ok (u,db')) :
    db' = db ∨ ∃ familyId, Closed familyId sessionId reason now db db' := by
  simp only [revoke,bind_ok,read_ok] at h
  obtain ⟨locator,_,⟨-,rfl⟩,h⟩ := h
  cases locator with
  | none =>
    simp only [pure_ok] at h
    exact Or.inl h.2.symm
  | some locator =>
    simp only [bind_ok,read_ok] at h
    obtain ⟨acquired,_,⟨-,rfl⟩,state,_,⟨-,rfl⟩,h⟩ := h
    generalize Option.filter _ state = found at h
    cases found with
    | none =>
      simp only [pure_ok] at h
      exact Or.inl h.2.symm
    | some state => exact Or.inr ⟨_,revokeBoth_ok h⟩

theorem switchTenant_effect {found : Option SessionLockLocator} {command : SwitchTenantCommand}
    (h : switchTenant hmac found command draw now timestamp db = .ok (result,db')) :
    ∃ familyId sessionId mid s t, Closed familyId sessionId .tenantSwitched now db mid ∧
      t.familyId = draw.familyId ∧ Opened mid db' s t := by
  simp only [switchTenant,bind_ok,read_ok,orFail_ok,require_ok] at h
  obtain ⟨_,_,⟨-,rfl⟩,_,_,⟨-,rfl⟩,_,_,⟨-,rfl⟩,_,_,⟨-,rfl⟩,_,_,⟨-,rfl⟩,_,_,⟨-,rfl⟩,_,_,⟨-,rfl⟩,
    _,mid,hclose,h⟩ := h
  exact ⟨_,_,mid,_,_,revokeBoth_ok hclose,rfl,addMaterial_ok hmac h⟩

theorem closed_tokens {familyId sessionId : UUID7} (h : Closed familyId sessionId reason now db db')
    (ht : t ∈ db'.tokens) :
    ∃ u ∈ db.tokens, t = if unrevokedOf familyId u then revokedToken reason now u else u := by
  rw [mem_rows,h.tokens] at ht
  obtain ⟨u,hu,rfl⟩ := List.mem_map.mp ht
  exact ⟨u,hu,rfl⟩

theorem revoked_family (familyId : UUID7) (reason : RevocationReason) (now : Time)
    (t : RefreshTokenRecordModel) :
    (if unrevokedOf familyId t then revokedToken reason now t else t).familyId = t.familyId := by
  split
  · rfl
  · rfl

theorem drawn_fresh {familyId : UUID7} (h : ¬familyDrawn familyId db = true) :
    ∀ t ∈ db.tokens, t.familyId ≠ familyId := by
  simpa [familyDrawn,mem_rows] using h

theorem sessionStep_effects (op : SessionOp) (db : SessionDatabase) :
    FamilyEffects db (sessionStep hmac op db) := by
  cases op with
  | start userId draw now timestamp =>
    simp only [sessionStep]
    split
    · exact .refl
    rename_i hdrawn
    rcases commit_cases (start hmac userId draw now timestamp) db with h | ⟨result,h⟩
    · rw [h]
    · obtain ⟨s,t,hfamily,heffect⟩ := start_effect hmac h
      exact .single (.opened s t _ (hfamily ▸ drawn_fresh hdrawn) heffect)
  | refresh rawToken draw now timestamp =>
    rcases commit_cases (refresh hmac rawToken draw now timestamp) db with h | ⟨outcome,h⟩
    · rw [sessionStep,h]
    · rcases refresh_effect hmac h with ⟨hsame,-⟩ | ⟨current,-,-,⟨-,reason,hc⟩ | ⟨r,hr⟩⟩
      · rw [sessionStep,hsame]
      · exact .single (.closed _ _ reason now _ hc)
      · exact .single (.rotated current r now _ hr)
  | revoke sessionId reason now =>
    rcases commit_cases (revoke sessionId reason now) db with h | ⟨u,h⟩
    · rw [sessionStep,h]
    · rcases revoke_effect h with hsame | ⟨familyId,hc⟩
      · rw [sessionStep,hsame]
      · exact .single (.closed familyId sessionId reason now _ hc)
  | switchTenant found command draw now timestamp =>
    simp only [sessionStep]
    split
    · exact .refl
    rename_i hdrawn
    rcases commit_cases (switchTenant hmac found command draw now timestamp) db with
      h | ⟨result,h⟩
    · rw [h]
    · obtain ⟨familyId,sessionId,mid,s,t,hclosed,hfamily,hopened⟩ := switchTenant_effect hmac h
      have hfresh : ∀ u ∈ mid.tokens, u.familyId ≠ t.familyId := by
        intro u hu
        obtain ⟨v,hv,rfl⟩ := closed_tokens hclosed hu
        rw [revoked_family,hfamily]
        exact drawn_fresh hdrawn v hv
      exact .tail (.single (.closed _ _ _ now mid hclosed)) (.opened s t _ hfresh hopened)
  | identity changed =>
    simp only [sessionStep]
    split
    · rename_i hreferences
      exact .single (.reidentified changed hreferences)
    · exact .refl

end LawyerAgent.SessionSteps
