import LawyerAgent.IdentityRegistration

/-!
# One identity for each subject

Two calls for one subject whose rings share a version are never both past their
locks, so what one of them has read of the subject stays true until it commits.
A row under a version outside the ring would not be read, and the check of the
versions turns the call away before.
-/

set_option autoImplicit false

namespace LawyerAgent.IdentityRegistration
open Relational Common

variable {κ : Type} [DecidableEq κ] (digest : ℕ → String → String → κ) (rotation : ℕ → KeyRing)

/-- What a session becomes that neither locks nor writes. -/
inductive Moved (c : IdentityCall) (t : Identities κ) : IdentityPhase κ → IdentityPhase κ → Prop
  | read : Moved c t .reading (readPhase digest rotation c t)
  | checked : Moved c t (.locking none []) (checkPhase rotation c t)
  | searched : Moved c t .checked (registerFind digest rotation c t)
  | found (loaded : AuthIdentity κ) :
      Moved c t (.locking (some loaded) []) (authenticateFind digest rotation c loaded t)
  | aborted (phase : IdentityPhase κ) : Moved c t phase (.done .aborted)

def inFlight (s : IdentitySession κ) : Bool :=
  match s.phase with
  | .done _ => false
  | _ => true

inductive IdentityEffect (w : IdentityWorld κ) : IdentityOp → IdentityWorld κ → Prop
  | unchanged (op : IdentityOp) : IdentityEffect w op w
  | called (c : IdentityCall) : IdentityEffect w (.call c)
      {w with sessions := w.sessions++[⟨c,called digest rotation c,[]⟩]}
  | moved (op : IdentityOp) (i : ℕ) (c : IdentityCall) (phase next : IdentityPhase κ)
      (held : List κ) (get : w.sessions[i]? = some ⟨c,phase,held⟩)
      (flying : inFlight (⟨c,phase,held⟩ : IdentitySession κ) = true)
      (moved : Moved digest rotation c w.identities phase next) :
      IdentityEffect w op (w.put i ⟨c,next,held⟩)
  | locked (i : ℕ) (c : IdentityCall) (loaded : Option (AuthIdentity κ)) (key : κ)
      (rest held : List κ) (get : w.sessions[i]? = some ⟨c,.locking loaded (key::rest),held⟩)
      (free : lockFree i key w = true) :
      IdentityEffect w (.lock i) (w.put i ⟨c,.locking loaded rest,key::held⟩)
  | wrote (i : ℕ) (c : IdentityCall) (phase : IdentityPhase κ) (held : List κ)
      (outcome : IdentityOutcome) (t : Identities κ)
      (get : w.sessions[i]? = some ⟨c,phase,held⟩)
      (writes : writes digest rotation c phase w.identities = some (outcome,t)) :
      IdentityEffect w (.write i) ⟨t,w.sessions.set i ⟨c,.done outcome,held⟩⟩
  | released (i : ℕ) (c : IdentityCall) (outcome : IdentityOutcome) (held : List κ)
      (get : w.sessions[i]? = some ⟨c,.done outcome,held⟩) :
      IdentityEffect w (.release i) (w.put i ⟨c,.done outcome,[]⟩)

theorem identityStep_effect (op : IdentityOp) (w : IdentityWorld κ) :
    IdentityEffect digest rotation w op (identityStep digest rotation op w) := by
  cases op with
  | call c => exact .called c
  | read i =>
    simp only [identityStep]
    split
    · rename_i c held hget
      exact .moved _ i c _ _ held hget rfl .read
    · exact .unchanged _
  | lock i =>
    simp only [identityStep]
    split
    · rename_i c loaded key rest held hget
      split
      · rename_i hfree
        exact .locked i c loaded key rest held hget hfree
      · exact .unchanged _
    · exact .unchanged _
  | check i =>
    simp only [identityStep]
    split
    · rename_i c held hget
      exact .moved _ i c _ _ held hget rfl .checked
    · exact .unchanged _
  | find i =>
    simp only [identityStep]
    split
    · rename_i c held hget
      exact .moved _ i c _ _ held hget rfl .searched
    · rename_i c loaded held hget
      exact .moved _ i c _ _ held hget rfl (.found loaded)
    · exact .unchanged _
  | write i =>
    simp only [identityStep]
    split
    · rename_i c phase held hget
      split
      · rename_i outcome t hwrites
        exact .wrote i c phase held outcome t hget hwrites
      · exact .unchanged _
    · exact .unchanged _
  | abort i =>
    simp only [identityStep]
    split
    · exact .unchanged _
    · rename_i c phase held hover hget
      refine .moved _ i c phase _ held hget ?_ (.aborted phase)
      cases phase with
      | done outcome => exact absurd rfl (hover outcome)
      | _ => rfl
    · exact .unchanged _
  | release i =>
    simp only [identityStep]
    split
    · rename_i c outcome held hget
      exact .released i c outcome held hget
    · exact .unchanged _

/-- A record that has been read is a row of the subject's kind and issuer. -/
structure Kept (c : IdentityCall) (t : Identities κ) (record : AuthIdentity κ) : Prop where
  kind : record.name.kind = c.name.kind
  issuer : record.name.issuer = c.name.issuer
  row : ∃ e ∈ t, e.id = record.id ∧ e.name = record.name

/-- The subject, if it has an identity, is under a version of the ring. -/
def Supported (c : IdentityCall) (t : Identities κ) : Prop :=
  ∀ e ∈ t, e.name = c.name →
    ∃ v ∈ (rotation c.generation).keyVersions, e.blindIndexKeyVersion = some v

def Locked (c : IdentityCall) (held : List κ) : Prop :=
  Taking (c.lockNames digest rotation) held []

/-- An authentication is done without locks when the version is the active one. -/
def PhaseSound (c : IdentityCall) (t : Identities κ) (held : List κ) : IdentityPhase κ → Prop
  | .reading => True
  | .locking loaded rest =>
    Taking (c.lockNames digest rotation) held rest ∧ ∀ record ∈ loaded, Kept c t record
  | .checked => Locked digest rotation c held ∧ Supported rotation c t
  | .absent => Locked digest rotation c held ∧ ∀ e ∈ t, e.name ≠ c.name
  | .found record => Kept c t record ∧
    (record.blindIndexKeyVersion ≠ some (rotation c.generation).activeKeyVersion →
      Locked digest rotation c held)
  | .done _ => True

variable {digest rotation}

theorem called_sound (c : IdentityCall) (t : Identities κ) :
    PhaseSound digest rotation c t [] (called digest rotation c) := by
  unfold called
  cases c.request with
  | register identityId userId =>
    refine ⟨taking_start _ _,?_⟩
    intro record hrecord
    cases hrecord
  | authenticate accepts => trivial

variable {c : IdentityCall} {record : AuthIdentity κ} {t : Identities κ} {held : List κ}
  {phase : IdentityPhase κ} {i : ℕ} {s : IdentitySession κ} {sessions : List (IdentitySession κ)}
  {w : IdentityWorld κ}

theorem find_keeps (h : record ∈ findByBlindIndexes c.name (c.indexes digest rotation) t) :
    Kept c t record := by
  obtain ⟨hmem,hkind,hissuer⟩ := find_kept h
  exact ⟨hkind,hissuer,record,hmem,rfl,rfl⟩

theorem readPhase_sound (c : IdentityCall) (t : Identities κ) (held : List κ) :
    PhaseSound digest rotation c t held (readPhase digest rotation c t) := by
  unfold readPhase
  split
  · trivial
  · split
    · rename_i record hfind
      have hkept : Kept c t record := find_keeps (by rw [hfind]; exact List.mem_singleton_self _)
      split
      · rename_i hactive
        exact ⟨hkept,fun hne => absurd hactive hne⟩
      · refine ⟨taking_start _ _,?_⟩
        intro loaded hloaded
        cases hloaded
        exact hkept
    · trivial

theorem authenticateFind_sound {loaded : AuthIdentity κ} (hheld : Locked digest rotation c held)
    (hloaded : Kept c t loaded) :
    PhaseSound digest rotation c t held (authenticateFind digest rotation c loaded t) := by
  unfold authenticateFind
  split
  · rename_i record hfind
    have hkept : Kept c t record := find_keeps (by rw [hfind]; exact List.mem_singleton_self _)
    refine ⟨?_,fun _ => hheld⟩
    unfold reloaded
    split
    · exact hloaded
    · exact hkept
  · trivial

theorem registerFind_sound (ht : Indexed digest t) (hheld : Locked digest rotation c held)
    (hsupported : Supported rotation c t) :
    PhaseSound digest rotation c t held (registerFind digest rotation c t) := by
  unfold registerFind
  split
  · rename_i hfind
    refine ⟨hheld,?_⟩
    intro e he hname
    obtain ⟨v,hv,hversion⟩ := hsupported e he hname
    have hfound : e ∈ findByBlindIndexes c.name (c.indexes digest rotation) t :=
      find_supported ht he hname hv hversion
    rw [hfind] at hfound
    cases hfound
  · trivial

theorem moved_sound {phase next : IdentityPhase κ} (ht : Indexed digest t)
    (hmoved : Moved digest rotation c t phase next)
    (h : PhaseSound digest rotation c t held phase) :
    PhaseSound digest rotation c t held next := by
  cases hmoved with
  | read => exact readPhase_sound c t held
  | checked =>
    unfold checkPhase
    split
    · trivial
    · rename_i hversions
      obtain ⟨-,hall⟩ := unsupported_iff.mp (eq_false_of_ne_true hversions)
      exact ⟨h.1,fun e he _ => hall e he⟩
  | searched => exact registerFind_sound ht h.1 h.2
  | found loaded => exact authenticateFind_sound h.1 (h.2 loaded rfl)
  | aborted => trivial

theorem kept_name (h : Kept c t record) (hsubject : record.name.subject = c.name.subject) :
    record.name = c.name :=
  NormalizedIdentity.ext h.kind h.issuer hsubject

/-- Only rows of `name` change, and no row changes its id or its name. -/
structure Rewritten (name : NormalizedIdentity) (t t' : Identities κ) : Prop where
  kept : ∀ e ∈ t, ∃ f ∈ t', f.id = e.id ∧ f.name = e.name
  others : ∀ f ∈ t', f.name ≠ name → f ∈ t

/-- A session of another subject, or one that has read nothing yet, relies on
nothing that a commit changes. -/
theorem phase_kept {name : NormalizedIdentity} {t t' : Identities κ} (ht : Rewritten name t t')
    (h : PhaseSound digest rotation c t held phase)
    (hname : Locked digest rotation c held → c.name ≠ name) :
    PhaseSound digest rotation c t' held phase := by
  have hkept : ∀ record, Kept c t record → Kept c t' record := by
    intro record hrecord
    obtain ⟨e,he,hid,hn⟩ := hrecord.row
    obtain ⟨f,hf,hfid,hfn⟩ := ht.kept e he
    exact ⟨hrecord.kind,hrecord.issuer,f,hf,hfid.trans hid,hfn.trans hn⟩
  have hrows : Locked digest rotation c held → ∀ f ∈ t', f.name = c.name → f ∈ t := by
    intro hheld f hf hfn
    apply ht.others f hf
    rw [hfn]
    exact hname hheld
  cases phase with
  | reading => trivial
  | locking loaded rest => exact ⟨h.1,fun record hrecord => hkept record (h.2 record hrecord)⟩
  | checked => exact ⟨h.1,fun f hf hfn => h.2 f (hrows h.1 f hf hfn) hfn⟩
  | absent => exact ⟨h.1,fun f hf hfn => h.2 f (hrows h.1 f hf hfn) hfn⟩
  | found record => exact ⟨hkept record h.1,h.2⟩
  | done outcome => trivial

variable (digest rotation) in
/-- What a commit leaves: the table as it was, or one whose only news is the
subject that the session has locked. -/
structure Committed (c : IdentityCall) (held : List κ) (t t' : Identities κ) : Prop where
  indexed : Indexed digest t'
  unique : Unique t'
  change : t' = t ∨ (Locked digest rotation c held ∧ Rewritten c.name t t')

theorem committed_refl (ht : Indexed digest t) (hunique : Unique t) :
    Committed digest rotation c held t t :=
  ⟨ht,hunique,Or.inl rfl⟩

theorem register_committed {identityId userId : UUID7} (ht : Indexed digest t) (hunique : Unique t)
    (h : PhaseSound digest rotation c t held .absent) :
    Committed digest rotation c held t
      (registerInTransaction digest rotation c identityId userId t).2 := by
  unfold registerInTransaction
  rw [show c.indexes digest rotation = identityIndexes digest (rotation c.generation) c.name
    from rfl,activeIndex_eq]
  dsimp only
  split
  · rename_i u t' hinsert
    have hrows : Inserted _ t t' := insertRow_ok.mp hinsert
    refine ⟨?_,?_,Or.inr ⟨h.1,?_,?_⟩⟩
    · intro e he v hv
      rcases (inserted_mem hrows).mp he with rfl | he
      · cases hv
        rfl
      · exact ht e he v hv
    · intro e he f hf hname
      rcases (inserted_mem hrows).mp he with rfl | he
      · rcases (inserted_mem hrows).mp hf with rfl | hf
        · rfl
        · exact absurd hname.symm (h.2 f hf)
      · rcases (inserted_mem hrows).mp hf with rfl | hf
        · exact absurd hname (h.2 e he)
        · exact hunique e he f hf hname
    · intro e he
      exact ⟨e,(inserted_mem hrows).mpr (Or.inr he),rfl,rfl⟩
    · intro f hf hne
      rcases (inserted_mem hrows).mp hf with rfl | hf
      · exact absurd rfl hne
      · exact hf
  · exact committed_refl ht hunique

theorem update_committed (ht : Indexed digest t) (hunique : Unique t)
    (hheld : Locked digest rotation c held) (hkept : Kept c t record) (hname : record.name =
      c.name) :
    Committed digest rotation c held t
      (updateBlindIndex digest rotation c record t).2 := by
  unfold updateBlindIndex
  rw [show c.indexes digest rotation = identityIndexes digest (rotation c.generation) c.name
    from rfl,activeIndex_eq]
  dsimp only
  split
  · exact committed_refl ht hunique
  · rename_i n t' hpositive hupdate
    obtain ⟨e,he,hid,hen⟩ := hkept.row
    rcases updateRows_keyed hupdate record.id (fun f hf => of_decide_eq_true hf) (fun f => rfl) with
      ⟨-,rfl,-⟩ | ⟨-,r,hr,hreplaced⟩
    · exact committed_refl ht hunique
    -- The row that is updated is the row that was read.
    have hre : r = e := by
      apply eq_of_key hreplaced.mem he
      exact (of_decide_eq_true hr).trans hid.symm
    subst hre
    have hrn : r.name = c.name := hen.trans hname
    refine ⟨?_,?_,Or.inr ⟨hheld,?_,?_⟩⟩
    · intro f hf v hv
      rcases (replaced_mem hreplaced).mp hf with rfl | ⟨hf,-⟩
      · cases hv
        show digest _ (purposeOf c.name.kind) c.name.subject = _
        rw [← hrn]
        rfl
      · exact ht f hf v hv
    · intro f hf g hg hfg
      rcases (replaced_mem hreplaced).mp hf with rfl | ⟨hf,hfk⟩
      · rcases (replaced_mem hreplaced).mp hg with rfl | ⟨hg,hgk⟩
        · rfl
        · exact absurd (congrArg _ (hunique r he g hg hfg)).symm hgk
      · rcases (replaced_mem hreplaced).mp hg with rfl | ⟨hg,hgk⟩
        · exact absurd (congrArg _ (hunique f hf r he hfg)) hfk
        · exact hunique f hf g hg hfg
    · intro f hf
      by_cases hk : f.id = r.id
      · obtain rfl : f = r := eq_of_key hf he hk
        exact ⟨_,(replaced_mem hreplaced).mpr (Or.inl rfl),rfl,rfl⟩
      · exact ⟨f,(replaced_mem hreplaced).mpr (Or.inr ⟨hf,hk⟩),rfl,rfl⟩
    · intro f hf hne
      rcases (replaced_mem hreplaced).mp hf with rfl | ⟨hf,-⟩
      · exact absurd hrn hne
      · exact hf
  · exact committed_refl ht hunique

theorem writes_committed {t t' : Identities κ} {outcome : IdentityOutcome} (ht : Indexed digest t)
    (hunique : Unique t) (h : PhaseSound digest rotation c t held phase)
    (hwrites : writes digest rotation c phase t = some (outcome,t')) :
    Committed digest rotation c held t t' := by
  unfold writes at hwrites
  split at hwrites
  · rename_i identityId userId hrequest
    have hwrites := congrArg Prod.snd (Option.some.inj hwrites)
    subst hwrites
    exact register_committed ht hunique h
  · rename_i accepts record hrequest
    have hwrites := congrArg Prod.snd (Option.some.inj hwrites)
    subst hwrites
    unfold authenticateInTransaction
    split
    · exact committed_refl ht hunique
    · rename_i hsubject
      split
      · exact committed_refl ht hunique
      · split
        · exact committed_refl ht hunique
        · rename_i hactive
          exact update_committed ht hunique (h.2 hactive) h.1
            (kept_name h.1 (not_not.mp hsubject))
  · cases hwrites

def heldBy (sessions : List (IdentitySession κ)) (i : ℕ) : List κ :=
  match sessions[i]? with
  | some s => s.held
  | none => []

omit [DecidableEq κ] in
theorem heldBy_get (h : sessions[i]? = some s) : heldBy sessions i = s.held := by
  unfold heldBy
  rw [h]

omit [DecidableEq κ] in
theorem heldBy_set (h : sessions[i]? = some s) (u : IdentitySession κ) :
    heldBy (sessions.set i u) = Function.update (heldBy sessions) i u.held := by
  funext k
  obtain ⟨hlt,-⟩ := List.getElem?_eq_some_iff.mp h
  by_cases hk : k = i
  · subst hk
    rw [Function.update_self]
    apply heldBy_get
    exact List.getElem?_set_self hlt
  · rw [Function.update_of_ne hk]
    unfold heldBy
    rw [List.getElem?_set_ne (Ne.symm hk)]

omit [DecidableEq κ] in
theorem heldBy_snoc (h : s.held = []) : heldBy (sessions++[s]) = heldBy sessions := by
  funext k
  unfold heldBy
  by_cases hk : k < sessions.length
  · rw [List.getElem?_append_left hk]
  · rw [List.getElem?_append_right (by omega),List.getElem?_eq_none (l := sessions) (by omega)]
    cases hs : [s][k-sessions.length]? with
    | none => rfl
    | some u =>
      obtain rfl : u = s := List.mem_singleton.mp (List.mem_of_getElem? hs)
      exact h

theorem free_unheld {key : κ} (h : lockFree i key w = true) :
    ∀ j, j ≠ i → key ∉ heldBy w.sessions j := by
  intro j hj
  unfold heldBy
  cases hs : w.sessions[j]? with
  | none => exact List.not_mem_nil
  | some s =>
    have hall := List.all_eq_true.mp h s (List.mem_eraseIdx_iff_getElem?.mpr ⟨j,hj,hs⟩)
    exact of_decide_eq_true hall

def Overlapping (rotation : ℕ → KeyRing) : Prop :=
  ∀ n, ∃ v ∈ (rotation n).keyVersions, v ∈ (rotation (n+1)).keyVersions

def Adjacent (m n : ℕ) : Prop := m ≤ n+1 ∧ n ≤ m+1

/-- A call begins while the calls in flight have rings next to its own. -/
def Near (op : IdentityOp) (w : IdentityWorld κ) : Prop :=
  match op with
  | .call c => ∀ s ∈ w.sessions, inFlight s = true → Adjacent s.call.generation c.generation
  | _ => True

variable (digest rotation) in
structure IdentitySound (w : IdentityWorld κ) : Prop where
  indexed : Indexed digest w.identities
  unique : Unique w.identities
  exclusive : Exclusive (heldBy w.sessions)
  near : ∀ (i j : ℕ) s t, w.sessions[i]? = some s → w.sessions[j]? = some t →
    inFlight s = true → inFlight t = true → Adjacent s.call.generation t.call.generation
  phases : ∀ (i : ℕ) s, w.sessions[i]? = some s →
    PhaseSound digest rotation s.call w.identities s.held s.phase

theorem shared_version (h : Overlapping rotation) {m n : ℕ} (hmn : Adjacent m n) :
    ∃ v ∈ (rotation m).keyVersions, v ∈ (rotation n).keyVersions := by
  obtain ⟨hm,hn⟩ := hmn
  by_cases heq : m = n
  · subst heq
    exact ⟨_,(rotation m).known,(rotation m).known⟩
  · by_cases hlt : m < n
    · obtain rfl : n = m+1 := by omega
      exact h m
    · obtain rfl : m = n+1 := by omega
      obtain ⟨v,hv,hv'⟩ := h n
      exact ⟨v,hv',hv⟩

/-- Two calls for one subject are never both past their locks. -/
theorem locked_alone (hoverlap : Overlapping rotation) (h : IdentitySound digest rotation w)
    {i j : ℕ} {s t : IdentitySession κ} (hs : w.sessions[i]? = some s)
    (ht : w.sessions[j]? = some t) (hfs : inFlight s = true) (hft : inFlight t = true)
    (hls : Locked digest rotation s.call s.held) (hlt : Locked digest rotation t.call t.held)
    (hname : s.call.name = t.call.name) : i = j := by
  obtain ⟨v,hv,hv'⟩ := shared_version hoverlap (h.near i j s t hs ht hfs hft)
  have hmine : digest v (purposeOf s.call.name.kind) s.call.name.subject ∈
      s.call.lockNames digest rotation := mem_lockOrder digest hv
  have hothers : digest v (purposeOf t.call.name.kind) t.call.name.subject ∈
      t.call.lockNames digest rotation := mem_lockOrder digest hv'
  rw [← hname] at hothers
  rw [Locked,← heldBy_get hs] at hls
  rw [Locked,← heldBy_get ht] at hlt
  exact taken_alone h.exclusive hls hlt hmine hothers

theorem call_sound (h : IdentitySound digest rotation w) (c : IdentityCall)
    (hnear : Near (.call c) w) :
    IdentitySound digest rotation
      {w with sessions := w.sessions++[⟨c,called digest rotation c,[]⟩]} := by
  refine ⟨h.indexed,h.unique,?_,?_,?_⟩
  · show Exclusive (heldBy (w.sessions++[⟨c,called digest rotation c,[]⟩]))
    rw [heldBy_snoc rfl]
    exact h.exclusive
  · intro i j s t hs ht hfs hft
    rcases snoc_get hs with hs | ⟨-,rfl⟩
    · rcases snoc_get ht with ht | ⟨-,rfl⟩
      · exact h.near i j s t hs ht hfs hft
      · exact hnear s (List.mem_of_getElem? hs) hfs
    · rcases snoc_get ht with ht | ⟨-,rfl⟩
      · obtain ⟨hle,hle'⟩ := hnear t (List.mem_of_getElem? ht) hft
        exact ⟨hle',hle⟩
      · exact ⟨Nat.le_succ _,Nat.le_succ _⟩
  · intro i s hs
    rcases snoc_get hs with hs | ⟨-,rfl⟩
    · exact h.phases i s hs
    · exact called_sound c w.identities

/-- One session goes on while the table stays as it is. -/
theorem put_sound (h : IdentitySound digest rotation w) (hget : w.sessions[i]? = some s)
    (u : IdentitySession κ) (hcall : u.call = s.call)
    (hflying : inFlight u = true → inFlight s = true)
    (hexclusive : Exclusive (Function.update (heldBy w.sessions) i u.held))
    (hphase : PhaseSound digest rotation u.call w.identities u.held u.phase) :
    IdentitySound digest rotation (w.put i u) := by
  have hold : ∀ (j : ℕ) r, (w.put i u).sessions[j]? = some r → inFlight r = true →
      ∃ q, w.sessions[j]? = some q ∧ r.call = q.call ∧ inFlight q = true := by
    intro j r hr hfr
    rcases set_get hr with ⟨hj,hru⟩ | ⟨-,hr⟩
    · rw [hru] at hfr ⊢
      rw [hj]
      exact ⟨s,hget,hcall,hflying hfr⟩
    · exact ⟨r,hr,rfl,hfr⟩
  refine ⟨h.indexed,h.unique,?_,?_,?_⟩
  · show Exclusive (heldBy (w.sessions.set i u))
    rw [heldBy_set hget]
    exact hexclusive
  · intro j k r t hr ht hfr hft
    obtain ⟨q,hq,hrq,hfq⟩ := hold j r hr hfr
    obtain ⟨p,hp,htp,hfp⟩ := hold k t ht hft
    rw [hrq,htp]
    exact h.near j k q p hq hp hfq hfp
  · intro j t ht
    rcases set_get ht with ⟨-,htu⟩ | ⟨-,ht⟩
    · rw [htu]
      exact hphase
    · exact h.phases j t ht

theorem exclusive_kept (h : IdentitySound digest rotation w)
    (hget : w.sessions[i]? = some ⟨c,phase,held⟩) :
    Exclusive (Function.update (heldBy w.sessions) i held) := by
  rw [show held = heldBy w.sessions i from (heldBy_get hget).symm,Function.update_eq_self]
  exact h.exclusive

theorem phase_flying (h : inFlight (⟨c,phase,held⟩ : IdentitySession κ) = false) :
    PhaseSound digest rotation c t held phase := by
  cases phase with
  | done outcome => trivial
  | _ => cases h

theorem write_sound (hoverlap : Overlapping rotation) (h : IdentitySound digest rotation w)
    {outcome : IdentityOutcome} (hget : w.sessions[i]? = some ⟨c,phase,held⟩)
    (hwrites : writes digest rotation c phase w.identities = some (outcome,t)) :
    IdentitySound digest rotation ⟨t,w.sessions.set i ⟨c,.done outcome,held⟩⟩ := by
  have hcommitted := writes_committed h.indexed h.unique (h.phases i _ hget) hwrites
  have hflying : inFlight (⟨c,phase,held⟩ : IdentitySession κ) = true := by
    cases phase with
    | done o =>
      unfold writes at hwrites
      split at hwrites <;> simp_all
    | _ => rfl
  have hold : IdentitySound digest rotation (w.put i ⟨c,.done outcome,held⟩) := by
    apply put_sound h hget ⟨c,.done outcome,held⟩ rfl
    · exact fun _ => hflying
    · exact exclusive_kept h hget
    · trivial
  refine ⟨hcommitted.indexed,hcommitted.unique,hold.exclusive,hold.near,?_⟩
  intro j s hs
  rcases hcommitted.change with rfl | ⟨hlocked,hrewritten⟩
  · exact hold.phases j s hs
  · by_cases hfs : inFlight s = true
    · apply phase_kept hrewritten (hold.phases j s hs)
      intro hheld hname
      rcases set_get hs with ⟨-,rfl⟩ | ⟨hne,hs⟩
      · cases hfs
      · exact hne (locked_alone hoverlap h hs hget hfs hflying hheld hlocked hname)
    · exact phase_flying (eq_false_of_ne_true hfs)

theorem identityStep_sound (hoverlap : Overlapping rotation) (op : IdentityOp)
    (w : IdentityWorld κ) (hnear : Near op w) (h : IdentitySound digest rotation w) :
    IdentitySound digest rotation (identityStep digest rotation op w) := by
  have heffect := identityStep_effect digest rotation op w
  generalize identityStep digest rotation op w = w' at heffect
  cases heffect with
  | unchanged => exact h
  | called c => exact call_sound h c hnear
  | moved op i c phase next held hget hflying hmoved =>
    apply put_sound h hget ⟨c,next,held⟩ rfl (fun _ => hflying)
    · exact exclusive_kept h hget
    · exact moved_sound h.indexed hmoved (h.phases i _ hget)
  | locked i c loaded key rest held hget hfree =>
    apply put_sound h hget ⟨c,.locking loaded rest,key::held⟩ rfl (fun _ => rfl)
    · have htake := exclusive_take h.exclusive (free_unheld hfree)
      rw [heldBy_get hget] at htake
      exact htake
    · have hphase := h.phases i _ hget
      exact ⟨taking_next hphase.1,hphase.2⟩
  | wrote i c phase held outcome t hget hwrites => exact write_sound hoverlap h hget hwrites
  | released i c outcome held hget =>
    exact put_sound h hget ⟨c,.done outcome,[]⟩ rfl id (exclusive_release h.exclusive i) trivial

theorem start_sound (ht : Indexed digest t) (hunique : Unique t) :
    IdentitySound digest rotation ⟨t,[]⟩ := by
  refine ⟨ht,hunique,?_,?_,?_⟩
  · intro i j key hkey
    cases hkey
  · intro i j s u hs
    cases hs
  · intro i s hs
    cases hs

theorem run_sound (hoverlap : Overlapping rotation) (ht : Indexed digest t) (hunique : Unique t)
    (ops : List IdentityOp) (hnear : Along (identityStep digest rotation) Near ops ⟨t,[]⟩) :
    IdentitySound digest rotation (run (identityStep digest rotation) ops ⟨t,[]⟩) :=
  guarded_invariant (fun op w => identityStep_sound hoverlap op w) ops ⟨t,[]⟩ hnear
    (start_sound ht hunique)

/-- The session goes on with the record of `e`, whose subject is that of the call. -/
def Finds (c : IdentityCall) (e : AuthIdentity κ) : IdentityPhase κ → Prop
  | .locking (some record) _ => record.id = e.id ∧ record.name = c.name
  | .found record => record.id = e.id ∧ record.name = c.name
  | _ => False

theorem readPhase_finds {e : AuthIdentity κ}
    (hfind : findByBlindIndexes c.name (c.indexes digest rotation) t = [e])
    (hname : e.name = c.name)
    (hversions : hasUnsupportedBlindIndexVersions (rotation c.generation).keyVersions t = false) :
    Finds c e (readPhase digest rotation c t) := by
  unfold readPhase
  rw [hversions,if_neg Bool.false_ne_true,hfind]
  dsimp only
  split
  · exact ⟨rfl,hname⟩
  · exact ⟨rfl,hname⟩

theorem readPhase_unavailable {f : AuthIdentity κ} (hf : f ∈ t)
    (hversion : ∀ v ∈ (rotation c.generation).keyVersions, f.blindIndexKeyVersion ≠ some v) :
    readPhase digest rotation c t = .done .unavailable := by
  unfold readPhase
  by_cases hversions :
      hasUnsupportedBlindIndexVersions (rotation c.generation).keyVersions t = true
  · rw [if_pos hversions]
  · obtain ⟨v,hv,hfv⟩ := (unsupported_iff.mp (eq_false_of_ne_true hversions)).2 f hf
    exact absurd hfv (hversion v hv)

theorem authenticateFind_finds {e loaded : AuthIdentity κ}
    (hfind : findByBlindIndexes c.name (c.indexes digest rotation) t = [e]) (he : e ∈ t)
    (hname : e.name = c.name) (hloaded : Kept c t loaded) :
    Finds c e (authenticateFind digest rotation c loaded t) := by
  unfold authenticateFind
  rw [hfind]
  show Finds c e (.found (reloaded loaded e))
  unfold reloaded
  split
  · rename_i hid
    obtain ⟨f,hf,hfid,hfn⟩ := hloaded.row
    obtain rfl : f = e := eq_of_key hf he (hfid.trans hid.symm)
    exact ⟨hid.symm,hfn.symm.trans hname⟩
  · exact ⟨rfl,hname⟩

/-- Every state of a run has at most one identity for a subject. A plain read
finds a subject under a version of the ring, unless some identity is under a
version outside the ring and the call is turned away; a read under the locks
finds it in any case. -/
theorem subject_found (hoverlap : Overlapping rotation) {t : Identities κ} (ht : Indexed digest t)
    (hunique : Unique t) (ops : List IdentityOp)
    (hnear : Along (identityStep digest rotation) Near ops ⟨t,[]⟩) :
    let w := run (identityStep digest rotation) ops ⟨t,[]⟩
    (∀ e ∈ w.identities, ∀ f ∈ w.identities, e.name = f.name → e = f) ∧
    ∀ (i : ℕ) (s : IdentitySession κ) (e : AuthIdentity κ) (v : ℕ), w.sessions[i]? = some s →
      e ∈ w.identities → e.name = s.call.name → e.blindIndexKeyVersion = some v →
      v ∈ (rotation s.call.generation).keyVersions →
      NoCollision digest w.identities s.call.name →
      (s.phase = .reading →
        ∃ u, (identityStep digest rotation (.read i) w).sessions[i]? = some u ∧
          ((∀ f ∈ w.identities, ∃ v' ∈ (rotation s.call.generation).keyVersions,
            f.blindIndexKeyVersion = some v') → Finds s.call e u.phase) ∧
          ((∃ f ∈ w.identities, ∀ v' ∈ (rotation s.call.generation).keyVersions,
            f.blindIndexKeyVersion ≠ some v') → u.phase = .done .unavailable)) ∧
      (∀ loaded, s.phase = .locking (some loaded) [] →
        ∃ u, (identityStep digest rotation (.find i) w).sessions[i]? = some u ∧
          Finds s.call e u.phase) := by
  intro w
  have hw : IdentitySound digest rotation w := run_sound hoverlap ht hunique ops hnear
  refine ⟨hw.unique,?_⟩
  intro i s e v hget he hname hversion hv hcollision
  have hfind : findByBlindIndexes s.call.name (s.call.indexes digest rotation) w.identities = [e] :=
    find_single hw.indexed hw.unique hcollision he hname hv hversion
  obtain ⟨hlt,-⟩ := List.getElem?_eq_some_iff.mp hget
  obtain ⟨c,phase,held⟩ := s
  constructor
  · intro hphase
    subst hphase
    refine ⟨⟨c,readPhase digest rotation c w.identities,held⟩,?_,?_,?_⟩
    · simp only [identityStep,hget]
      exact List.getElem?_set_self hlt
    · intro hall
      apply readPhase_finds hfind hname
      exact unsupported_iff.mpr ⟨List.ne_nil_of_mem hv,hall⟩
    · rintro ⟨f,hf,hother⟩
      exact readPhase_unavailable hf hother
  · intro loaded hphase
    subst hphase
    refine ⟨⟨c,authenticateFind digest rotation c loaded w.identities,held⟩,?_,?_⟩
    · simp only [identityStep,hget]
      exact List.getElem?_set_self hlt
    · exact authenticateFind_finds hfind he hname ((hw.phases i _ hget).2 loaded rfl)

instance (op : IdentityOp) (w : IdentityWorld κ) : Decidable (Near op w) := by
  cases op with
  | call c =>
    exact inferInstanceAs (Decidable (∀ s ∈ w.sessions, inFlight s = true → _ ≤ _ ∧ _ ≤ _))
  | _ => exact .isTrue trivial

def sampleDigest (version : ℕ) (purpose value : String) : ℕ × String × String :=
  (version,purpose,value)

/-- A first ring with one version, one with the next version active, and then
the rings without the first version. -/
def sampleRotation : ℕ → KeyRing
  | 0 => ⟨[1],1,by decide,by decide,by decide⟩
  | 1 => ⟨[1,2],2,by decide,by decide,by decide⟩
  | _+2 => ⟨[2],2,by decide,by decide,by decide⟩

theorem sample_overlapping : Overlapping sampleRotation := by
  intro n
  match n with
  | 0 => exact ⟨1,by decide,by decide⟩
  | 1 => exact ⟨2,by decide,by decide⟩
  | k+2 => exact ⟨2,List.mem_singleton_self 2,List.mem_singleton_self 2⟩

def alice : NormalizedIdentity := ⟨.username,"local","alice"⟩

def bob : NormalizedIdentity := ⟨.username,"local","bob"⟩

def sampleRow (n : ℕ) (name : NormalizedIdentity) (version : ℕ) :
    AuthIdentity (ℕ × String × String) :=
  ⟨⟨n,0,0⟩,⟨n,1,0⟩,name,sampleDigest version (purposeOf name.kind) name.subject,some version⟩

def sampleRegister (generation n : ℕ) (name : NormalizedIdentity) : IdentityOp :=
  .call ⟨generation,name,.register ⟨n,0,0⟩ ⟨n,1,0⟩⟩

/-- Alice registers under the first version, and a process of the next ring
begins to authenticate her. -/
def aliceOps : List IdentityOp :=
  [sampleRegister 0 1 alice,.lock 0,.check 0,.find 0,.write 0,.release 0,
    .call ⟨1,alice,.authenticate true⟩]

def aliceWorld : IdentityWorld (ℕ × String × String) :=
  run (identityStep sampleDigest sampleRotation) aliceOps ⟨.empty,[]⟩

theorem alice_rows : aliceWorld.identities.rows = [sampleRow 1 alice 1] := by decide

theorem alice_session :
    aliceWorld.sessions[1]? = some ⟨⟨1,alice,.authenticate true⟩,.reading,[]⟩ := by
  decide

theorem alice_found : ∃ u,
    (identityStep sampleDigest sampleRotation (.read 1) aliceWorld).sessions[1]? = some u ∧
    Finds ⟨1,alice,.authenticate true⟩ (sampleRow 1 alice 1) u.phase := by
  have hall : ∀ e ∈ aliceWorld.identities, e = sampleRow 1 alice 1 := by
    intro e he
    rw [mem_rows,alice_rows] at he
    exact List.mem_singleton.mp he
  have hmem : sampleRow 1 alice 1 ∈ aliceWorld.identities := by
    rw [mem_rows,alice_rows]
    exact List.mem_singleton_self _
  have hcollision :
      NoCollision sampleDigest aliceWorld.identities alice := by
    intro e he _ v _
    rw [hall e he]
    rfl
  obtain ⟨u,hu,hfinds,-⟩ := ((subject_found sample_overlapping
    (fun e he => absurd he (not_mem_empty e)) (fun e he => absurd he (not_mem_empty e)) aliceOps
    (by decide)).2 1 ⟨⟨1,alice,.authenticate true⟩,.reading,[]⟩ (sampleRow 1 alice 1) 1
    alice_session hmem rfl rfl (by decide) hcollision).1 rfl
  refine ⟨u,hu,hfinds ?_⟩
  intro f hf
  rw [hall f hf]
  exact ⟨1,by decide,rfl⟩

/-- Bob registers under the first version and Alice under the next one, which a
process of the ring after it has alone. -/
def bobOps : List IdentityOp :=
  [sampleRegister 0 1 bob,.lock 0,.check 0,.find 0,.write 0,.release 0,
    sampleRegister 1 2 alice,.lock 1,.lock 1,.check 1,.find 1,.write 1,.release 1,
    .call ⟨2,alice,.authenticate true⟩,.read 2]

def bobWorld : IdentityWorld (ℕ × String × String) :=
  run (identityStep sampleDigest sampleRotation) bobOps ⟨.empty,[]⟩

/-- Alice is registered under a version of the ring, and the call that
authenticates her is turned away. -/
theorem alice_unavailable :
    Overlapping sampleRotation ∧
    Along (identityStep sampleDigest sampleRotation) Near bobOps ⟨.empty,[]⟩ ∧
    sampleRow 2 alice 2 ∈ bobWorld.identities ∧ 2 ∈ (sampleRotation 2).keyVersions ∧
    ∃ s, bobWorld.sessions[2]? = some s ∧ s.call = ⟨2,alice,.authenticate true⟩ ∧
      s.phase = .done .unavailable := by
  refine ⟨sample_overlapping,by decide,?_,by decide,_,rfl,rfl,?_⟩
  · rw [mem_rows]
    decide
  · decide

end LawyerAgent.IdentityRegistration
