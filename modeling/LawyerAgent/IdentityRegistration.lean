import LawyerAgent.Common
import LawyerAgent.Relational.NamedLocks
import LawyerAgent.Relational.RowSessions
import LawyerAgent.Relational.Table
import Mathlib.Data.List.Sort

/-!
# Registration and authentication of an identity

`IdentityService.register` and `IdentityService.authenticate`, called by
processes whose blind-index key rings differ. A subject has one blind index
under each key version, and a call locks the indexes under all versions of its
ring, by name and on a connection of its own. The plain read of an
authentication and its check of the versions see one snapshot; what is read for
update is current.
-/

set_option autoImplicit false

namespace LawyerAgent.IdentityRegistration
open Relational Common

inductive IdentityKind where
  | username
  | phone
  | email
  | wechatUnionid
  | wechatOpenid
deriving DecidableEq

def IdentityKind.value : IdentityKind → String
  | username => "username"
  | phone => "phone"
  | email => "email"
  | wechatUnionid => "wechat_unionid"
  | wechatOpenid => "wechat_openid"

@[ext] structure NormalizedIdentity where
  kind : IdentityKind
  issuer : String
  subject : String
deriving DecidableEq

/-- The versions that a `BlindIndexService` has keys for, in order. -/
structure KeyRing where
  keyVersions : List ℕ
  activeKeyVersion : ℕ
  bounded : ∀ v ∈ keyVersions, 1 ≤ v ∧ v ≤ 32767
  ordered : keyVersions.Pairwise (· < ·)
  known : activeKeyVersion ∈ keyVersions

structure VersionedBlindIndex (κ : Type) where
  keyVersion : ℕ
  digest : κ

variable {κ : Type} (digest : ℕ → String → String → κ)

/-- `digest` is the keyed hash: a version has the same key wherever a ring has it. -/
def digests (ring : KeyRing) (purpose value : String) : List (VersionedBlindIndex κ) :=
  ring.keyVersions.map fun v => ⟨v,digest v purpose value⟩

def purposeOf (kind : IdentityKind) : String := "identity:"++kind.value

def identityIndexes (ring : KeyRing) (name : NormalizedIdentity) : List (VersionedBlindIndex κ) :=
  digests digest ring (purposeOf name.kind) name.subject

def activeIndex (indexes : List (VersionedBlindIndex κ)) (activeVersion : ℕ) :
    Option (VersionedBlindIndex κ) :=
  indexes.find? fun index => index.keyVersion == activeVersion

/-- No two indexes have one version, so the digests do not decide the order. -/
def lockOrder (indexes : List (VersionedBlindIndex κ)) : List κ :=
  (indexes.insertionSort fun a b => a.keyVersion ≤ b.keyVersion).map (·.digest)

theorem activeIndex_eq (ring : KeyRing) (name : NormalizedIdentity) :
    activeIndex (identityIndexes digest ring name) ring.activeKeyVersion =
      some ⟨ring.activeKeyVersion,
        digest ring.activeKeyVersion (purposeOf name.kind) name.subject⟩ := by
  have hfind : ring.keyVersions.find? (· == ring.activeKeyVersion) =
      some ring.activeKeyVersion := by
    cases hf : ring.keyVersions.find? (· == ring.activeKeyVersion) with
    | none =>
      have := List.find?_eq_none.mp hf ring.activeKeyVersion ring.known
      simp at this
    | some v =>
      have hv := List.find?_some hf
      rw [eq_of_beq hv]
  rw [activeIndex,identityIndexes,digests,List.find?_map]
  show (ring.keyVersions.find? (· == ring.activeKeyVersion)).map _ = _
  rw [hfind]
  rfl

variable {name : NormalizedIdentity} {ring : KeyRing}

theorem mem_lockOrder {v : ℕ} (hv : v ∈ ring.keyVersions) :
    digest v (purposeOf name.kind) name.subject ∈
      lockOrder (identityIndexes digest ring name) := by
  apply List.mem_map.mpr
  refine ⟨⟨v,digest v (purposeOf name.kind) name.subject⟩,?_,rfl⟩
  rw [List.mem_insertionSort]
  exact List.mem_map.mpr ⟨v,hv,rfl⟩

/-- `name` has the kind, the issuer and the subject that the ciphertext decrypts
to. The user and the credential that a read joins are added with the identity. -/
structure AuthIdentity (κ : Type) where
  id : UUID7
  userId : UUID7
  name : NormalizedIdentity
  subjectBlindIndex : κ
  blindIndexKeyVersion : Option ℕ
deriving DecidableEq

section Queries

variable [DecidableEq κ]

/-- Rows without a version do not clash. -/
def sameIndex (e f : AuthIdentity κ) : Bool :=
  decide (e.name.kind = f.name.kind ∧ e.name.issuer = f.name.issuer ∧
    e.blindIndexKeyVersion = f.blindIndexKeyVersion ∧
    e.subjectBlindIndex = f.subjectBlindIndex) && e.blindIndexKeyVersion.isSome

variable (κ) in
def authIdentities : Schema (AuthIdentity κ) UUID7 where
  key := (·.id)
  check e := e.blindIndexKeyVersion.all fun v => decide (1 ≤ v ∧ v ≤ 32767)
  clash := sameIndex

abbrev Identities (κ : Type) [DecidableEq κ] : Type := Table (authIdentities κ)

def supportedBy (supported : List ℕ) (e : AuthIdentity κ) : Bool :=
  e.blindIndexKeyVersion.any supported.contains

def hasUnsupportedBlindIndexVersions (supported : List ℕ) (t : Identities κ) : Bool :=
  supported.isEmpty || t.rows.any fun e => !supportedBy supported e

def indexed (name : NormalizedIdentity) (indexes : List (VersionedBlindIndex κ))
    (e : AuthIdentity κ) : Bool :=
  decide (e.name.kind = name.kind ∧ e.name.issuer = name.issuer) &&
    indexes.any fun index =>
      decide (e.blindIndexKeyVersion = some index.keyVersion ∧ e.subjectBlindIndex = index.digest)

def findByBlindIndexes (name : NormalizedIdentity) (indexes : List (VersionedBlindIndex κ))
    (t : Identities κ) : List (AuthIdentity κ) :=
  selectRows (indexed name indexes) t

variable {t : Identities κ} {e : AuthIdentity κ}

theorem unsupported_iff {supported : List ℕ} :
    hasUnsupportedBlindIndexVersions supported t = false ↔
      supported ≠ [] ∧ ∀ e ∈ t, ∃ v ∈ supported, e.blindIndexKeyVersion = some v := by
  have hrow : ∀ e : AuthIdentity κ, supportedBy supported e = true ↔
      ∃ v ∈ supported, e.blindIndexKeyVersion = some v := by
    intro e
    unfold supportedBy
    cases e.blindIndexKeyVersion with
    | none => simp
    | some v => simp
  rw [hasUnsupportedBlindIndexVersions,Bool.or_eq_false_iff,List.any_eq_false]
  apply and_congr
  · simp
  · apply forall_congr'
    intro e
    rw [← hrow e,Bool.not_eq_true',Bool.not_eq_false]
    rfl

/-- The index of a row is the digest of its subject under the row's version. -/
def Indexed (t : Identities κ) : Prop :=
  ∀ e ∈ t, ∀ v, e.blindIndexKeyVersion = some v →
    e.subjectBlindIndex = digest v (purposeOf e.name.kind) e.name.subject

def Unique (t : Identities κ) : Prop := ∀ e ∈ t, ∀ f ∈ t, e.name = f.name → e = f

/-- No row has the digest of `name` under another subject. -/
def NoCollision (t : Identities κ) (name : NormalizedIdentity) : Prop :=
  ∀ e ∈ t, e.name.kind = name.kind → ∀ v, digest v (purposeOf name.kind) e.name.subject =
    digest v (purposeOf name.kind) name.subject → e.name.subject = name.subject

variable {digest}

theorem indexed_iff :
    indexed name (identityIndexes digest ring name) e = true ↔
      e.name.kind = name.kind ∧ e.name.issuer = name.issuer ∧
      ∃ v ∈ ring.keyVersions, e.blindIndexKeyVersion = some v ∧
        e.subjectBlindIndex = digest v (purposeOf name.kind) name.subject := by
  simp [indexed,identityIndexes,digests,and_assoc]

theorem find_kept (h : e ∈ findByBlindIndexes name (identityIndexes digest ring name) t) :
    e ∈ t ∧ e.name.kind = name.kind ∧ e.name.issuer = name.issuer := by
  obtain ⟨hmem,hindexed⟩ := mem_selectRows.mp h
  have hkept := indexed_iff.mp hindexed
  exact ⟨hmem,hkept.1,hkept.2.1⟩

theorem find_supported (ht : Indexed digest t) (he : e ∈ t) (hname : e.name = name) {v : ℕ}
    (hv : v ∈ ring.keyVersions) (hversion : e.blindIndexKeyVersion = some v) :
    e ∈ findByBlindIndexes name (identityIndexes digest ring name) t := by
  apply mem_selectRows.mpr
  refine ⟨he,indexed_iff.mpr ⟨by rw [hname],by rw [hname],v,hv,hversion,?_⟩⟩
  rw [ht e he v hversion,hname]

theorem find_single (ht : Indexed digest t) (hunique : Unique t)
    (hcollision : NoCollision digest t name) (he : e ∈ t) (hname : e.name = name) {v : ℕ}
    (hv : v ∈ ring.keyVersions) (hversion : e.blindIndexKeyVersion = some v) :
    findByBlindIndexes name (identityIndexes digest ring name) t = [e] := by
  have hnodup : (findByBlindIndexes name (identityIndexes digest ring name) t).Nodup :=
    (nodup_rows t).filter _
  apply List.perm_singleton.mp
  apply (List.perm_ext_iff_of_nodup hnodup (List.nodup_singleton e)).mpr
  intro f
  rw [List.mem_singleton]
  constructor
  · intro hf
    obtain ⟨hmem,hindexed⟩ := mem_selectRows.mp hf
    obtain ⟨hkind,hissuer,u,-,hu,hindex⟩ := indexed_iff.mp hindexed
    have hsubject : f.name.subject = name.subject := by
      apply hcollision f hmem hkind u
      rw [← hindex,ht f hmem u hu,hkind]
    have hf : f.name = name := NormalizedIdentity.ext hkind hissuer hsubject
    exact hunique f hmem e he (hf.trans hname.symm)
  · intro hf
    rw [hf]
    exact find_supported ht he hname hv hversion

end Queries

/-- `accepts` is whether the ciphertext opens, the password fits, and the user,
the identity and the credential are active and not locked. -/
inductive IdentityRequest where
  | register (identityId userId : UUID7)
  | authenticate (accepts : Bool)
deriving DecidableEq

structure IdentityCall where
  generation : ℕ
  name : NormalizedIdentity
  request : IdentityRequest
deriving DecidableEq

/-- A caller sees `notFound` and `refused` as one failure. -/
inductive IdentityOutcome where
  | registered (userId : UUID7)
  | conflict
  | unavailable
  | authenticated (userId : UUID7)
  | notFound
  | refused
  | aborted
deriving DecidableEq

/-- `locking loaded rest` has `rest` to lock; an authentication has loaded a record then. -/
inductive IdentityPhase (κ : Type) where
  | reading
  | locking (loaded : Option (AuthIdentity κ)) (rest : List κ)
  | checked
  | absent
  | found (record : AuthIdentity κ)
  | done (outcome : IdentityOutcome)
deriving DecidableEq

structure IdentitySession (κ : Type) where
  call : IdentityCall
  phase : IdentityPhase κ
  held : List κ
deriving DecidableEq

section Calls

variable (rotation : ℕ → KeyRing)

def IdentityCall.indexes (c : IdentityCall) : List (VersionedBlindIndex κ) :=
  identityIndexes digest (rotation c.generation) c.name

def IdentityCall.lockNames (c : IdentityCall) : List κ := lockOrder (c.indexes digest rotation)

def called (c : IdentityCall) : IdentityPhase κ :=
  match c.request with
  | .register _ _ => .locking none (c.lockNames digest rotation)
  | .authenticate _ => .reading

variable [DecidableEq κ]

def readPhase (c : IdentityCall) (t : Identities κ) : IdentityPhase κ :=
  if hasUnsupportedBlindIndexVersions (rotation c.generation).keyVersions t then
    .done .unavailable
  else
    match findByBlindIndexes c.name (c.indexes digest rotation) t with
    | [record] =>
      if record.blindIndexKeyVersion = some (rotation c.generation).activeKeyVersion then
        .found record
      else .locking (some record) (c.lockNames digest rotation)
    | _ => .done .notFound

def checkPhase (c : IdentityCall) (t : Identities κ) : IdentityPhase κ :=
  if hasUnsupportedBlindIndexVersions (rotation c.generation).keyVersions t then
    .done .unavailable
  else .checked

/-- A row that the session has loaded is not loaded again. -/
def reloaded (loaded record : AuthIdentity κ) : AuthIdentity κ :=
  if record.id = loaded.id then loaded else record

def registerFind (c : IdentityCall) (t : Identities κ) : IdentityPhase κ :=
  match findByBlindIndexes c.name (c.indexes digest rotation) t with
  | [] => .absent
  | _ => .done .conflict

def authenticateFind (c : IdentityCall) (loaded : AuthIdentity κ) (t : Identities κ) :
    IdentityPhase κ :=
  match findByBlindIndexes c.name (c.indexes digest rotation) t with
  | [record] => .found (reloaded loaded record)
  | _ => .done .notFound

/-- A duplicate of an index is a conflict, and any other is raised as it is. -/
def registerInTransaction (c : IdentityCall) (identityId userId : UUID7) (t : Identities κ) :
    IdentityOutcome × Identities κ :=
  match activeIndex (c.indexes digest rotation) (rotation c.generation).activeKeyVersion with
  | none => (.unavailable,t)
  | some index =>
    let row : AuthIdentity κ := ⟨identityId,userId,c.name,index.digest,some index.keyVersion⟩
    match insertRow () row t with
    | .ok (_,t') => (.registered userId,t')
    | .error _ => (if t.rows.any (sameIndex row) then .conflict else .aborted,t)

def AuthIdentity.reindexed (index : VersionedBlindIndex κ) (e : AuthIdentity κ) :
    AuthIdentity κ :=
  {e with subjectBlindIndex := index.digest, blindIndexKeyVersion := some index.keyVersion}

def updateBlindIndex (c : IdentityCall) (record : AuthIdentity κ) (t : Identities κ) :
    IdentityOutcome × Identities κ :=
  match activeIndex (c.indexes digest rotation) (rotation c.generation).activeKeyVersion with
  | none => (.unavailable,t)
  | some index =>
    match updateRows () (fun e => decide (e.id = record.id)) (AuthIdentity.reindexed index) t with
    | .ok (0,_) => (.aborted,t)
    | .ok (_,t') => (.authenticated record.userId,t')
    | .error _ => (.conflict,t)

def authenticateInTransaction (c : IdentityCall) (accepts : Bool) (record : AuthIdentity κ)
    (t : Identities κ) : IdentityOutcome × Identities κ :=
  if record.name.subject ≠ c.name.subject then (.notFound,t)
  else if !accepts then (.refused,t)
  else if record.blindIndexKeyVersion = some (rotation c.generation).activeKeyVersion then
    (.authenticated record.userId,t)
  else updateBlindIndex digest rotation c record t

def writes (c : IdentityCall) (phase : IdentityPhase κ) (t : Identities κ) :
    Option (IdentityOutcome × Identities κ) :=
  match c.request, phase with
  | .register identityId userId, .absent =>
    some (registerInTransaction digest rotation c identityId userId t)
  | .authenticate accepts, .found record =>
    some (authenticateInTransaction digest rotation c accepts record t)
  | _, _ => none

end Calls

structure IdentityWorld (κ : Type) [DecidableEq κ] where
  identities : Identities κ
  sessions : List (IdentitySession κ)

inductive IdentityOp where
  | call (c : IdentityCall)
  | read (i : ℕ)
  | lock (i : ℕ)
  | check (i : ℕ)
  | find (i : ℕ)
  | write (i : ℕ)
  | abort (i : ℕ)
  | release (i : ℕ)

section Steps

variable [DecidableEq κ] (rotation : ℕ → KeyRing)

def IdentityWorld.put (w : IdentityWorld κ) (i : ℕ) (s : IdentitySession κ) : IdentityWorld κ :=
  {w with sessions := w.sessions.set i s}

/-- No session but `i` holds the lock. -/
def lockFree (i : ℕ) (key : κ) (w : IdentityWorld κ) : Bool :=
  (w.sessions.eraseIdx i).all fun s => decide (key ∉ s.held)

/-- A session commits what it writes and gives up its locks later. It may end
at any point before, and is rolled back then. -/
def identityStep : IdentityOp → IdentityWorld κ → IdentityWorld κ
  | .call c, w => {w with sessions := w.sessions++[⟨c,called digest rotation c,[]⟩]}
  | .read i, w =>
    match w.sessions[i]? with
    | some ⟨c,.reading,held⟩ => w.put i ⟨c,readPhase digest rotation c w.identities,held⟩
    | _ => w
  | .lock i, w =>
    match w.sessions[i]? with
    | some ⟨c,.locking loaded (key::rest),held⟩ =>
      if lockFree i key w then w.put i ⟨c,.locking loaded rest,key::held⟩ else w
    | _ => w
  | .check i, w =>
    match w.sessions[i]? with
    | some ⟨c,.locking none [],held⟩ => w.put i ⟨c,checkPhase rotation c w.identities,held⟩
    | _ => w
  | .find i, w =>
    match w.sessions[i]? with
    | some ⟨c,.checked,held⟩ => w.put i ⟨c,registerFind digest rotation c w.identities,held⟩
    | some ⟨c,.locking (some loaded) [],held⟩ =>
      w.put i ⟨c,authenticateFind digest rotation c loaded w.identities,held⟩
    | _ => w
  | .write i, w =>
    match w.sessions[i]? with
    | some ⟨c,phase,held⟩ =>
      match writes digest rotation c phase w.identities with
      | some (outcome,t) => ⟨t,w.sessions.set i ⟨c,.done outcome,held⟩⟩
      | none => w
    | none => w
  | .abort i, w =>
    match w.sessions[i]? with
    | some ⟨_,.done _,_⟩ => w
    | some ⟨c,_,held⟩ => w.put i ⟨c,.done .aborted,held⟩
    | none => w
  | .release i, w =>
    match w.sessions[i]? with
    | some ⟨c,.done outcome,_⟩ => w.put i ⟨c,.done outcome,[]⟩
    | _ => w

end Steps

end LawyerAgent.IdentityRegistration
