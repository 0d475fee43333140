import LawyerAgent.SessionSteps
import LawyerAgent.SessionValidation

/-!
# Refresh-token families

A family has one session and at most one token that can still be used. A used
token that comes back closes the family, and nothing opens it again: a new
token is either the first of a new family or replaces an unrevoked one. A
revoked session is final in the same way.
-/

set_option autoImplicit false

namespace LawyerAgent.SessionFamilies
open Relational Common SessionDomain SessionTables
open SessionRepository SessionService SessionSteps
open SessionValidation IdentityTables

variable (hmac : List UInt8 → Digest)

/-- Of one family, with its session and its tenant. -/
structure SameFamily (t t' : RefreshTokenRecordModel) : Prop where
  family : t'.familyId = t.familyId
  session : t'.sessionId = t.sessionId
  tenant : t'.tenantId = t.tenantId

structure TokenKept (t t' : RefreshTokenRecordModel) : Prop where
  same : SameFamily t t'
  used : t.usedAt.isSome → t'.usedAt.isSome
  revoked : t.revokedAt.isSome → t'.revokedAt.isSome

structure SessionKept (s s' : AuthSessionModel) : Prop where
  family : s'.currentFamilyId = s.currentFamilyId
  revoked : s.revokedAt.isSome → s'.revokedAt.isSome

theorem sameFamily_trans {a b c : RefreshTokenRecordModel} (h : SameFamily a b)
    (k : SameFamily b c) : SameFamily a c :=
  ⟨k.family.trans h.family,k.session.trans h.session,k.tenant.trans h.tenant⟩

theorem tokenKept_refl (t : RefreshTokenRecordModel) : TokenKept t t := ⟨⟨rfl,rfl,rfl⟩,id,id⟩

theorem tokenKept_trans (a b c : RefreshTokenRecordModel) (h : TokenKept a b)
    (k : TokenKept b c) : TokenKept a c :=
  ⟨sameFamily_trans h.same k.same,fun hu => k.used (h.used hu),fun hr => k.revoked (h.revoked hr)⟩

theorem sessionKept_refl (s : AuthSessionModel) : SessionKept s s := ⟨rfl,id⟩

/-- The first token of a family, alone in it and backed by its session. -/
structure Founding (db db' : SessionDatabase) (t : RefreshTokenRecordModel) : Prop where
  fresh : ∀ u ∈ db.tokens, u.familyId ≠ t.familyId
  alone : ∀ u ∈ db'.tokens, u.familyId = t.familyId → u.sessionId = t.sessionId
  session : ∃ s ∈ db'.sessions, s.id = t.sessionId ∧ s.currentFamilyId = t.familyId
  tenant : tenantNamed t db'.identity

def Born (db db' : SessionDatabase) (t : RefreshTokenRecordModel) : Prop :=
  Founding db db' t ∨ ∃ u ∈ db.tokens, SameFamily u t ∧ u.revokedAt = none

variable {db db' : SessionDatabase} {t : RefreshTokenRecordModel} {now : Time}
  {familyId sessionId : UUID7}

theorem founding_kept {t t' : RefreshTokenRecordModel} (h : Founding db db' t)
    (hk : SameFamily t t') : Founding db db' t' := by
  refine ⟨?_,?_,?_,?_⟩
  · rw [hk.family]
    exact h.fresh
  · rw [hk.family,hk.session]
    exact h.alone
  · rw [hk.family,hk.session]
    exact h.session
  · unfold tenantNamed
    rw [hk.tenant]
    exact h.tenant

theorem born_kept (t t' : RefreshTokenRecordModel) (h : Born db db' t) (hk : TokenKept t t') :
    Born db db' t' := by
  rcases h with hfounding | ⟨u,hu,hsame,hnone⟩
  · exact Or.inl (founding_kept hfounding hk.same)
  · exact Or.inr ⟨u,hu,sameFamily_trans hsame hk.same,hnone⟩

theorem opened_founding {s : AuthSessionModel} (hfresh : ∀ u ∈ db.tokens, u.familyId ≠ t.familyId)
    (h : Opened db db' s t) : Founding db db' t := by
  refine ⟨hfresh,?_,⟨s,(inserted_mem h.session).mpr (Or.inl rfl),h.sessionId.symm,
    h.family.symm⟩,h.identity ▸ h.tenant⟩
  intro u hu hfamily
  rcases (inserted_mem h.token).mp hu with rfl | hu
  · rfl
  · exact absurd hfamily (hfresh u hu)

theorem effect_tokens (h : FamilyEffect db db') :
    Evolves TokenKept (Born db db') db.tokens db'.tokens := by
  cases h with
  | opened s t _ fresh effect =>
    exact evolves_inserted tokenKept_refl (Or.inl (opened_founding fresh effect)) effect.token
  | closed familyId sessionId reason now _ effect =>
    exact evolves_updated (f := revokedToken reason now) (fun _ => rfl) tokenKept_refl
      (fun t _ => ⟨⟨rfl,rfl,rfl⟩,id,fun _ => rfl⟩) effect.tokens
  | rotated current r now _ effect =>
    obtain ⟨used,added,hused,hadded,hlinked⟩ := effect.tokens
    have hborn : Born db db' r :=
      Or.inr ⟨current,effect.present,⟨effect.family,effect.sessionId,effect.tenantId⟩,
        effect.unrevoked⟩
    have hkept : TokenKept current (usedToken now current) :=
      ⟨⟨rfl,rfl,rfl⟩,fun _ => rfl,id⟩
    have hsame : TokenKept (usedToken now current)
        (linkedToken r.id now (usedToken now current)) := ⟨⟨rfl,rfl,rfl⟩,id,id⟩
    have h₁ : Evolves TokenKept (Born db db') db.tokens used :=
      evolves_replaced tokenKept_refl hkept hused
    have h₂ : Evolves TokenKept (Born db db') used added :=
      evolves_inserted tokenKept_refl hborn hadded
    have h₃ : Evolves TokenKept (Born db db') added db'.tokens :=
      evolves_replaced tokenKept_refl hsame hlinked
    exact evolves_trans tokenKept_trans born_kept
      (evolves_trans tokenKept_trans born_kept h₁ h₂) h₃
  | reidentified changed references => exact evolves_refl tokenKept_refl _

theorem effect_sessions (h : FamilyEffect db db') :
    Evolves SessionKept (fun _ => True) db.sessions db'.sessions := by
  cases h with
  | opened s t _ fresh effect => exact evolves_inserted sessionKept_refl trivial effect.session
  | closed familyId sessionId reason now _ effect =>
    exact evolves_updated (f := revokedSession reason now) (fun _ => rfl) sessionKept_refl
      (fun s _ => ⟨rfl,fun _ => rfl⟩) effect.sessions
  | rotated current r now _ effect =>
    obtain ⟨s,expiresAt,htouched⟩ := effect.session
    have hkept : SessionKept s (touchedSession now expiresAt s) := ⟨rfl,id⟩
    exact evolves_replaced sessionKept_refl hkept htouched
  | reidentified changed references => exact evolves_refl sessionKept_refl _

theorem effect_origin (h : FamilyEffect db db') {t' : RefreshTokenRecordModel}
    (ht' : t' ∈ db'.tokens) :
    (∃ t ∈ db.tokens, SameFamily t t') ∨ Founding db db' t' := by
  rcases (effect_tokens h).came t' ht' with ⟨t,ht,-,hkept⟩ | ⟨hfounding | ⟨t,ht,hsame,-⟩,-⟩
  · exact Or.inl ⟨t,ht,hkept.same⟩
  · exact Or.inr hfounding
  · exact Or.inl ⟨t,ht,hsame⟩

def isOpen (t : RefreshTokenRecordModel) : Bool := t.usedAt.isNone && t.revokedAt.isNone

structure Consistent (db : SessionDatabase) : Prop where
  tenant : ∀ t ∈ db.tokens, tenantNamed t db.identity
  family : ∀ t ∈ db.tokens, ∃ s ∈ db.sessions, s.id = t.sessionId ∧ s.currentFamilyId = t.familyId
  session : ∀ t ∈ db.tokens, ∀ u ∈ db.tokens, t.familyId = u.familyId → t.sessionId = u.sessionId
  single : ∀ t ∈ db.tokens, ∀ u ∈ db.tokens, t.familyId = u.familyId → isOpen t = true →
    isOpen u = true → t = u

theorem consistent_start (identity : Identity) : Consistent (noSessions identity) := by
  refine ⟨?_,?_,?_,?_⟩
  all_goals
    intro t ht
    exact absurd ht (not_mem_empty t)

theorem effect_tenant (h : FamilyEffect db db') (hc : Consistent db) :
    ∀ t ∈ db'.tokens, tenantNamed t db'.identity := by
  have hkept : db'.identity = db.identity → ∀ t ∈ db'.tokens, tenantNamed t db'.identity := by
    intro hidentity t' ht'
    rcases effect_origin h ht' with ⟨t,ht,hsame⟩ | hfounding
    · unfold tenantNamed
      rw [hidentity,hsame.tenant]
      exact hc.tenant t ht
    · exact hfounding.tenant
  cases h with
  | opened s t _ fresh effect => exact hkept effect.identity
  | closed familyId sessionId reason now _ effect => exact hkept effect.identity
  | rotated current r now _ effect => exact hkept effect.identity
  | reidentified changed references =>
    intro u hu
    simp only [referencesHold,Bool.and_eq_true,List.all_eq_true] at references
    have hrefers := references.2 u hu
    simp only [tokenRefers,Bool.and_eq_true] at hrefers
    exact hrefers.1.1.2

theorem effect_family (h : FamilyEffect db db') (hc : Consistent db) :
    ∀ t ∈ db'.tokens, ∃ s ∈ db'.sessions, s.id = t.sessionId ∧
      s.currentFamilyId = t.familyId := by
  intro t' ht'
  rcases effect_origin h ht' with ⟨t,ht,hsame⟩ | hfounding
  · obtain ⟨s,hs,hid,hfamily⟩ := hc.family t ht
    obtain ⟨s',hs',hkey,hkept⟩ := (effect_sessions h).kept s hs
    rw [hsame.family,hsame.session]
    exact ⟨s',hs',Eq.trans hkey hid,hkept.family.trans hfamily⟩
  · exact hfounding.session

theorem effect_session (h : FamilyEffect db db') (hc : Consistent db) :
    ∀ t ∈ db'.tokens, ∀ u ∈ db'.tokens, t.familyId = u.familyId →
      t.sessionId = u.sessionId := by
  intro t' ht' u' hu' hfamily
  rcases effect_origin h ht' with ⟨t,ht,hst⟩ | hfounding
  · rcases effect_origin h hu' with ⟨u,hu,hsu⟩ | hfounding
    · rw [hst.session,hsu.session]
      exact hc.session t ht u hu (hst.family.symm.trans (hfamily.trans hsu.family))
    · exact hfounding.alone t' ht' hfamily
  · exact (hfounding.alone u' hu' hfamily.symm).symm

theorem rotated_open {current r : RefreshTokenRecordModel} (h : Rotated current r now db db')
    (ht : t ∈ db'.tokens) (hopen : isOpen t = true) :
    t = r ∨ t ∈ db.tokens ∧ t ≠ current := by
  obtain ⟨used,added,hused,hadded,hlinked⟩ := h.tokens
  rcases (replaced_mem hlinked).mp ht with rfl | ⟨ht,-⟩
  · simp [isOpen,linkedToken,usedToken] at hopen
  rcases (inserted_mem hadded).mp ht with rfl | ht
  · exact Or.inl rfl
  rcases (replaced_mem hused).mp ht with rfl | ⟨ht,hne⟩
  · simp [isOpen,usedToken] at hopen
  · refine Or.inr ⟨ht,?_⟩
    rintro rfl
    exact hne rfl

theorem closed_open {reason : RevocationReason} (h : Closed familyId sessionId reason now db db')
    (ht : t ∈ db'.tokens) (hopen : isOpen t = true) :
    t ∈ db.tokens := by
  obtain ⟨u,hu,rfl⟩ := closed_tokens h ht
  by_cases hu' : unrevokedOf familyId u = true
  · simp [isOpen,hu',revokedToken] at hopen
  · rw [if_neg hu']
    exact hu

theorem effect_single (h : FamilyEffect db db') (hc : Consistent db) :
    ∀ t ∈ db'.tokens, ∀ u ∈ db'.tokens, t.familyId = u.familyId → isOpen t = true →
      isOpen u = true → t = u := by
  intro t ht u hu hfamily hopent hopenu
  cases h with
  | opened s n _ fresh effect =>
    rcases (inserted_mem effect.token).mp ht with rfl | ht
    · rcases (inserted_mem effect.token).mp hu with rfl | hu
      · rfl
      · exact absurd hfamily.symm (fresh u hu)
    · rcases (inserted_mem effect.token).mp hu with rfl | hu
      · exact absurd hfamily (fresh t ht)
      · exact hc.single t ht u hu hfamily hopent hopenu
  | closed familyId sessionId reason now _ effect =>
    exact hc.single t (closed_open effect ht hopent) u (closed_open effect hu hopenu) hfamily
      hopent hopenu
  | rotated current r now _ effect =>
    -- the rotated token was the open one of its family
    have hopen : isOpen current = true := by simp [isOpen,effect.unused,effect.unrevoked]
    rcases rotated_open effect ht hopent with rfl | ⟨ht,hnet⟩
    · rcases rotated_open effect hu hopenu with rfl | ⟨hu,hneu⟩
      · rfl
      · exact absurd (hc.single u hu current effect.present
          (hfamily.symm.trans effect.family) hopenu hopen) hneu
    · rcases rotated_open effect hu hopenu with rfl | ⟨hu,hneu⟩
      · exact absurd (hc.single t ht current effect.present (hfamily.trans effect.family)
          hopent hopen) hnet
      · exact hc.single t ht u hu hfamily hopent hopenu
  | reidentified changed references => exact hc.single t ht u hu hfamily hopent hopenu

theorem effect_consistent (h : FamilyEffect db db') (hc : Consistent db) : Consistent db' :=
  ⟨effect_tenant h hc,effect_family h hc,effect_session h hc,effect_single h hc⟩

theorem step_keeps {I : SessionDatabase → Prop}
    (heffect : ∀ db db', FamilyEffect db db' → I db → I db') (op : SessionOp)
    (db : SessionDatabase) (hI : I db) : I (sessionStep hmac op db) := by
  have hsteps := sessionStep_effects hmac op db
  generalize sessionStep hmac op db = db' at hsteps
  induction hsteps with
  | refl => exact hI
  | tail _ hlast ih => exact heffect _ _ hlast ih

theorem run_consistent (identity : Identity) (ops : List SessionOp) :
    Consistent (run (sessionStep hmac) ops (noSessions identity)) :=
  run_invariant (step_keeps hmac fun _ _ => effect_consistent) ops _ (consistent_start identity)

/-- A family that has been drawn, none of its tokens unrevoked, its session revoked. -/
structure Dead (familyId sessionId : UUID7) (db : SessionDatabase) : Prop where
  drawn : ∃ t ∈ db.tokens, t.familyId = familyId
  tokens : ∀ t ∈ db.tokens, t.familyId = familyId → t.revokedAt.isSome
  session : ∃ s ∈ db.sessions, s.id = sessionId ∧ s.revokedAt.isSome

theorem effect_dead (familyId sessionId : UUID7) (db db' : SessionDatabase)
    (h : FamilyEffect db db') (hdead : Dead familyId sessionId db) :
    Dead familyId sessionId db' := by
  have htokens := effect_tokens h
  obtain ⟨first,hfirst,hdrawn⟩ := hdead.drawn
  refine ⟨?_,?_,?_⟩
  · obtain ⟨t,ht,-,hkept⟩ := htokens.kept first hfirst
    exact ⟨t,ht,hkept.same.family.trans hdrawn⟩
  · intro t' ht' hfamily
    rcases htokens.came t' ht' with ⟨t,ht,-,hkept⟩ | ⟨hfounding | ⟨u,hu,hsame,hnone⟩,-⟩
    · exact hkept.revoked (hdead.tokens t ht (hkept.same.family.symm.trans hfamily))
    · exact absurd (hdrawn.trans hfamily.symm) (hfounding.fresh first hfirst)
    · have hrevoked := hdead.tokens u hu (hsame.family.symm.trans hfamily)
      simp [hnone] at hrevoked
  · obtain ⟨s,hs,hid,hrevoked⟩ := hdead.session
    obtain ⟨s',hs',hkey,hkept⟩ := (effect_sessions h).kept s hs
    exact ⟨s',hs',Eq.trans hkey hid,hkept.revoked hrevoked⟩

theorem run_dead (ops : List SessionOp) (hdead : Dead familyId sessionId db) :
    Dead familyId sessionId (run (sessionStep hmac) ops db) :=
  run_invariant (step_keeps hmac (effect_dead familyId sessionId)) ops db hdead

theorem closed_dead {reason : RevocationReason} (hc : Consistent db) (ht : t ∈ db.tokens)
    (h : Closed t.familyId t.sessionId reason now db db') :
    Dead t.familyId t.sessionId db' := by
  have heffect := FamilyEffect.closed _ _ _ _ _ h
  refine ⟨?_,?_,?_⟩
  · obtain ⟨t',ht',-,hkept⟩ := (effect_tokens heffect).kept t ht
    exact ⟨t',ht',hkept.same.family⟩
  · intro u' hu' hfamily
    obtain ⟨u,hu,rfl⟩ := closed_tokens h hu'
    rw [revoked_family] at hfamily
    cases hrevoked : u.revokedAt with
    | none => simp [unrevokedOf,hfamily,hrevoked,revokedToken]
    | some at_ => simp [unrevokedOf,hrevoked]
  · obtain ⟨s,hs,hid,-⟩ := hc.family t ht
    refine ⟨_,(mem_rows _ _).mpr (h.sessions ▸ List.mem_map_of_mem hs),?_,?_⟩
    · split
      · exact hid
      · exact hid
    · cases hrevoked : s.revokedAt with
      | none => simp [unrevokedSession,isSession,hid,hrevoked,revokedSession]
      | some at_ => simp [unrevokedSession,hrevoked]

theorem lockCurrent_finds (hc : Consistent db) (ht : t ∈ db.tokens) :
    lockCurrent t.tokenHash db = .ok (some t,db) := by
  have hselect : selectRow (hasHash t.tokenHash) db.tokens = some t := by
    refine selectRow_eq ht (by simp [hasHash]) fun u hu hhash => ?_
    exact eq_of_clash hu ht hhash
  have hlocate : locateRefresh t.tokenHash db = some ⟨t.id,t.familyId,t.sessionId,t.tenantId⟩ := by
    rw [locateRefresh,hselect]
    rfl
  have hacquire : acquireSessionFamily t.sessionId [t.tenantId] db = true := by
    obtain ⟨s,hs,hid,-⟩ := hc.family t ht
    have hsession : selectRow (isSession t.sessionId) db.sessions = some s := by
      refine selectRow_eq hs (by simp [isSession,hid]) fun u hu hp => ?_
      exact eq_of_key hu hs ((isSession_id hp).trans hid.symm)
    have htenant := hc.tenant t ht
    unfold tenantNamed at htenant
    cases hid : t.tenantId with
    | none => simp [acquireSessionFamily,hsession]
    | some tenantId => simpa [acquireSessionFamily,hsession,hid] using htenant
  have hmatch : refreshMatchesLocator t ⟨t.id,t.familyId,t.sessionId,t.tenantId⟩ = true := by
    simp [refreshMatchesLocator]
  simp only [lockCurrent,bind_ok,read_ok]
  refine ⟨_,_,⟨hlocate,rfl⟩,?_⟩
  simp only [bind_ok,read_ok]
  refine ⟨_,_,⟨hacquire,rfl⟩,?_⟩
  simp only [if_true,bind_ok,read_ok,pure_ok]
  refine ⟨_,_,⟨hselect,rfl⟩,?_,rfl⟩
  simp [Option.filter,hmatch]

theorem refresh_used {rawToken : String} (draw : RefreshDraw) (now timestamp : Time)
    (hc : Consistent db) (ht : t ∈ db.tokens) (hhash : t.tokenHash = refreshHash hmac rawToken)
    (hused : t.usedAt.isSome) :
    ∃ db', refresh hmac rawToken draw now timestamp db = .ok (.replayed,db') ∧
      Dead t.familyId t.sessionId db' := by
  obtain ⟨db',hdb'⟩ := revokeBoth_succeeds t.familyId t.sessionId .refreshReplay now db
  refine ⟨db',?_,closed_dead hc ht (revokeBoth_ok hdb')⟩
  simp only [refresh,bind_ok]
  refine ⟨_,_,hhash ▸ lockCurrent_finds hc ht,?_⟩
  simp only [if_pos hused,bind_ok,pure_ok]
  exact ⟨_,_,hdb',trivial,rfl⟩

theorem dead_refresh {rawToken : String} {draw : RefreshDraw} {now timestamp : Time}
    {result : SessionResult} (hdead : Dead familyId sessionId db) (ht : t ∈ db.tokens)
    (hfamily : t.familyId = familyId) (hhash : t.tokenHash = refreshHash hmac rawToken) :
    refresh hmac rawToken draw now timestamp db ≠ .ok (.rotated result,db') := by
  intro h
  rcases refresh_effect hmac h with ⟨-,hinvalid⟩ | ⟨current,hmem,hcurrent,hrest⟩
  · cases hinvalid
  have hsame : current = t := by
    apply eq_of_clash hmem ht
    simp [refreshTokenRecords,hcurrent,hhash]
  rcases hrest with ⟨hreplayed | hinvalid,-⟩ | ⟨r,hrotated⟩
  · cases hreplayed
  · cases hinvalid
  · have hrevoked := hdead.tokens t ht hfamily
    rw [← hsame,hrotated.unrevoked] at hrevoked
    cases hrevoked

theorem dead_access {verify : String → Audience → Time → Option AccessTokenClaims}
    {cache : Option ValidationCache} {encoded : String} {audience : Audience}
    {claims : AccessTokenClaims} {principal : ValidatedSession} (hdead : Dead familyId sessionId db)
    (hclaims : verify encoded audience now = some claims)
    (hsession : claims.value.sessionId = sessionId) :
    validateAccess verify cache encoded audience now db ≠ .ok principal := by
  intro h
  obtain ⟨s,hs,hid,-,hnone,-⟩ := (validateAccess_valid hclaims h).session.session
  obtain ⟨s',hs',hid',hrevoked⟩ := hdead.session
  have hsame : s = s' := eq_of_key hs hs' (hid.trans (hsession.trans hid'.symm))
  rw [← hsame,hnone] at hrevoked
  cases hrevoked

/-- In every reachable state a family has at most one token that is unused and
unrevoked; a used token that is presented closes its family and its session
for the rest of every run. -/
theorem refresh_families (identity : Identity) (ops₁ ops₂ : List SessionOp) :
    let db := run (sessionStep hmac) ops₁ (noSessions identity)
    (∀ t ∈ db.tokens, ∀ u ∈ db.tokens, t.familyId = u.familyId → isOpen t = true →
      isOpen u = true → t = u) ∧
    (∀ t ∈ db.tokens, t.usedAt.isSome → ∀ rawToken draw now timestamp,
      t.tokenHash = refreshHash hmac rawToken →
      let presented := sessionStep hmac (.refresh rawToken draw now timestamp) db
      let later := run (sessionStep hmac) ops₂ presented
      refresh hmac rawToken draw now timestamp db = .ok (.replayed,presented) ∧
      (∀ u ∈ later.tokens, u.familyId = t.familyId → u.revokedAt.isSome) ∧
      (∃ s ∈ later.sessions, s.id = t.sessionId ∧ s.revokedAt.isSome) ∧
      (∀ u ∈ later.tokens, u.familyId = t.familyId → ∀ raw draw now timestamp result db',
        u.tokenHash = refreshHash hmac raw →
        refresh hmac raw draw now timestamp later ≠ .ok (.rotated result,db')) ∧
      (∀ verify cache encoded audience now claims principal,
        verify encoded audience now = some claims → claims.value.sessionId = t.sessionId →
        validateAccess verify cache encoded audience now later ≠ .ok principal)) := by
  intro db
  have hc : Consistent db := run_consistent hmac identity ops₁
  refine ⟨hc.single,?_⟩
  intro t ht hused rawToken draw now timestamp hhash presented later
  obtain ⟨db',hrefresh,hdead⟩ := refresh_used hmac draw now
    timestamp hc ht hhash hused
  have hpresented : presented = db' := commit_ok hrefresh
  have hlater : Dead t.familyId t.sessionId later := run_dead hmac ops₂ (hpresented ▸ hdead)
  refine ⟨hpresented ▸ hrefresh,hlater.tokens,hlater.session,?_,?_⟩
  · intro u hu hfamily raw draw now timestamp result db' hraw
    exact dead_refresh hmac hlater hu hfamily hraw
  · intro verify cache encoded audience now claims principal hclaims hsession
    exact dead_access hlater hclaims hsession

variable {reason : RevocationReason} {s : AuthSessionModel}

/-- Every session's user, tenant and membership exist. -/
def Referred (db : SessionDatabase) : Prop := ∀ s ∈ db.sessions, sessionRefers s db.identity = true

theorem closed_referred (h : Closed familyId sessionId reason now db db') (hdb : Referred db) :
    Referred db' := by
  intro s hs
  rw [mem_rows,h.sessions] at hs
  obtain ⟨old,hold,rfl⟩ := List.mem_map.mp hs
  rw [h.identity]
  split
  · exact hdb old hold
  · exact hdb old hold

theorem rotated_referred {current r : RefreshTokenRecordModel} (h : Rotated current r now db db')
    (hdb : Referred db) : Referred db' := by
  obtain ⟨old,expiresAt,hreplaced⟩ := h.session
  intro s hs
  rw [h.identity]
  rcases (replaced_mem hreplaced).mp hs with rfl | ⟨hs,-⟩
  · exact hdb old hreplaced.mem
  · exact hdb s hs

theorem addMaterial_referred {new : NewSession} {draw : SessionDraw} {timestamp : Time}
    {result : SessionResult}
    (h : addMaterial hmac new draw now timestamp db = .ok (result,db')) (hdb : Referred db) :
    Referred db' := by
  simp only [addMaterial,addSession,addRefresh,bind_ok,ofExcept_ok,pure_ok,zoom_ok,insertRow_ok,
    read_ok,require_ok] at h
  obtain ⟨-,_,⟨-,rfl⟩,-,_,⟨-,_,⟨sessions,hs,rfl⟩,_,_,⟨rfl,rfl⟩,hrefers,rfl⟩,-,_,
    ⟨-,_,⟨tokens,-,rfl⟩,-,_,⟨-,rfl⟩,-,rfl⟩,-,rfl⟩ := h
  intro s hmem
  rcases (inserted_mem hs).mp hmem with rfl | hmem
  · exact hrefers
  · exact hdb s hmem

theorem step_referred (op : SessionOp) (db : SessionDatabase) (hdb : Referred db) :
    Referred (sessionStep hmac op db) := by
  cases op with
  | start userId draw now timestamp =>
    simp only [sessionStep]
    split
    · exact hdb
    · refine commit_of (P := Referred) hdb fun result db' h => ?_
      simp only [start,bind_ok,read_ok,orFail_ok,require_ok] at h
      obtain ⟨_,_,⟨-,rfl⟩,_,_,⟨-,rfl⟩,_,_,⟨-,rfl⟩,h⟩ := h
      exact addMaterial_referred hmac h hdb
  | refresh rawToken draw now timestamp =>
    refine commit_of (P := Referred) hdb fun outcome db' h => ?_
    rcases refresh_effect hmac h with ⟨rfl,-⟩ | ⟨current,-,-,⟨-,reason,hclosed⟩ | ⟨r,hrotated⟩⟩
    · exact hdb
    · exact closed_referred hclosed hdb
    · exact rotated_referred hrotated hdb
  | revoke sessionId reason now =>
    refine commit_of (P := Referred) hdb fun u db' h => ?_
    rcases revoke_effect h with rfl | ⟨familyId,hclosed⟩
    · exact hdb
    · exact closed_referred hclosed hdb
  | switchTenant found command draw now timestamp =>
    simp only [sessionStep]
    split
    · exact hdb
    · refine commit_of (P := Referred) hdb fun result db' h => ?_
      simp only [switchTenant,bind_ok,read_ok,orFail_ok,require_ok] at h
      obtain ⟨_,_,⟨-,rfl⟩,_,_,⟨-,rfl⟩,_,_,⟨-,rfl⟩,_,_,⟨-,rfl⟩,_,_,⟨-,rfl⟩,_,_,⟨-,rfl⟩,
        _,_,⟨-,rfl⟩,_,mid,hclose,h⟩ := h
      exact addMaterial_referred hmac h (closed_referred (revokeBoth_ok hclose) hdb)
  | identity changed =>
    simp only [sessionStep]
    split
    · next h =>
      rw [referencesHold,Bool.and_eq_true] at h
      exact List.all_eq_true.mp h.1
    · exact hdb

theorem revoke_closes (reason : RevocationReason) (now : Time) (hdb : Referred db)
    (hs : s ∈ db.sessions) : ∃ db', revoke s.id reason now db = .ok ((),db') ∧
      Closed s.currentFamilyId s.id reason now db db' := by
  have hsession : selectRow (isSession s.id) db.sessions = some s :=
    selectRow_eq hs (by simp [isSession]) fun u hu hp => eq_of_key hu hs (isSession_id hp)
  have hrefers := hdb s hs
  simp only [sessionRefers,Bool.and_eq_true] at hrefers
  obtain ⟨user,huser⟩ := Option.isSome_iff_exists.mp hrefers.1.1
  have hacquired : acquireSessionFamily s.id [s.tenantId] db = true := by
    cases htenant : s.tenantId with
    | none => simp [acquireSessionFamily,hsession]
    | some tenantId => simpa [acquireSessionFamily,hsession,htenant] using hrefers.1.2
  obtain ⟨db',hdb'⟩ := revokeBoth_succeeds s.currentFamilyId s.id reason now db
  refine ⟨db',?_,revokeBoth_ok hdb'⟩
  simp only [revoke,bind_ok,read_ok]
  refine ⟨_,_,⟨rfl,rfl⟩,?_⟩
  simp only [locateSession,hsession,Option.map_some,bind_ok,read_ok]
  refine ⟨_,_,⟨hacquired,rfl⟩,_,_,⟨rfl,rfl⟩,?_⟩
  simp only [getValidationState,hsession,huser,bind,Option.bind_some]
  simpa [Option.filter,sessionMatchesLocator,validationState] using hdb'

/-- In every reachable state each session's user, tenant and membership exist, so
that a revocation finds its session. No token of a revoked session refreshes or
validates for the rest of every run. -/
theorem revoke_final (identity : Identity) (ops₁ ops₂ : List SessionOp) :
    let db := run (sessionStep hmac) ops₁ (noSessions identity)
    Referred db ∧ ∀ t ∈ db.tokens, ∀ reason now,
      let later := run (sessionStep hmac) ops₂
        (sessionStep hmac (.revoke t.sessionId reason now) db)
      Dead t.familyId t.sessionId later ∧
      (∀ u ∈ later.tokens, u.familyId = t.familyId → ∀ raw draw now timestamp result db',
        u.tokenHash = refreshHash hmac raw →
        refresh hmac raw draw now timestamp later ≠ .ok (.rotated result,db')) ∧
      (∀ verify cache encoded audience now claims principal,
        verify encoded audience now = some claims → claims.value.sessionId = t.sessionId →
        validateAccess verify cache encoded audience now later ≠ .ok principal) := by
  intro db
  have hdb : Referred db :=
    run_invariant (step_referred hmac) ops₁ _ fun s hs => absurd hs (not_mem_empty s)
  refine ⟨hdb,fun t ht reason now => ?_⟩
  have hc : Consistent db := run_consistent hmac identity ops₁
  obtain ⟨s,hs,hid,hfamily⟩ := hc.family t ht
  obtain ⟨db',hrevoke,hclosed⟩ := revoke_closes reason now hdb hs
  rw [hid] at hrevoke
  rw [hid,hfamily] at hclosed
  have hlater := run_dead hmac ops₂ (closed_dead hc ht hclosed)
  intro later
  have hstep : sessionStep hmac (.revoke t.sessionId reason now) db = db' := commit_ok hrevoke
  rw [← hstep] at hlater
  refine ⟨hlater,?_,?_⟩
  · intro u hu hfamily raw draw now timestamp result db' hraw
    exact dead_refresh hmac hlater hu hfamily hraw
  · intro verify cache encoded audience now claims principal hclaims hsession
    exact dead_access hlater hclaims hsession

end LawyerAgent.SessionFamilies
