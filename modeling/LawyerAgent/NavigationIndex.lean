import LawyerAgent.DatasetSetPublish
import LawyerAgent.NavigationDocuments
import LawyerAgent.Outcomes.Numbered

/-!
# Building the navigation index

`LegalNavigationIndexService.build` reads every version twice. The first round
writes nothing and remembers the fingerprints; the second round appends the
documents of a version once its fingerprint has been found again. The index is
marked ready when it counts as many documents as were announced and written.
-/

set_option autoImplicit false

namespace LawyerAgent.NavigationIndex
open Outcomes Common CanonicalJson
open LegalVersions LegalCorpus NavigationDocuments
open DatasetFacts (hexText)
open DatasetSetPublish (NavigationBuildResult isName batches batches_flatten)

/-- What the calls made so far were told; a failed call counts as well. -/
structure Progress where
  reads : ℕ
  appends : ℕ
  ensured : Bool
  received : List NavigationDocument
  ready : Bool

structure Request where
  versionIds : List UUID7
  mainIndexName : String
  parserVersion : String

variable {sha256 : List UInt8 → Digest}

/-- The answers of the source and of the index; those that may change depend on
the number of the call. -/
structure Ports (sha256 : List UInt8 → Digest) where
  versionWithInstrument : ℕ → UUID7 → Except String (Option (DatedVersion × LegalInstrument))
  provisionsForVersion : ℕ → UUID7 → Except String (List (Provision sha256))
  ensureNavigationIndex : String → Except String Unit
  appendNavigationDocuments : ℕ → String → List NavigationDocument → String → Except String Unit
  countDocuments : String → Except String (Option ℤ)
  markNavigationReady : String → Except String Unit

abbrev Build (α : Type) : Type := Effect NavigationFailure Progress α

def fromPort {α : Type} : Except String α → Except NavigationFailure α
  | .ok a => .ok a
  | .error name => .error (.portError name)

variable (sha256) in
def navigationIndexName (mainIndexName : String) : Except NavigationFailure String := do
  require (isName mainIndexName.toList = true) (.valueError "main_index_name is invalid")
  return "lawyer-nav-"++String.ofList ((hexText (sha256 (encode mainIndexName.toList))).take 32)

/-- The arguments; every identifier is a UUIDv7 already. -/
def checkArguments (r : Request) : Except NavigationFailure Unit := do
  require (nonempty r.parserVersion = true)
    (.valueError "navigation parser_version must be non-empty text")
  require (r.versionIds ≠ []) (.valueError "navigation version_ids must be a non-empty tuple")
  require r.versionIds.Nodup (.valueError "navigation version_ids must be unique")

def foundPair {α : Type} : Option α → Except NavigationFailure α
  | some pair => .ok pair
  | none => .error (.valueError "navigation source version is missing or invalid")

/-- `_version_documents` -/
def readVersion (ports : Ports sha256) (parserVersion : String) (call : ℕ) (versionId : UUID7) :
    Except NavigationFailure (List NavigationDocument × String) := do
  let found ← fromPort (ports.versionWithInstrument call versionId)
  let pair ← foundPair found
  require (pair.1.version.value.id = versionId ∧
      pair.1.version.value.instrumentId = pair.2.value.id)
    (.valueError "navigation source identity mismatch")
  let provisions ← fromPort (ports.provisionsForVersion call versionId)
  require (provisions ≠ []) (.valueError "navigation source provisions must be non-empty")
  contentDocuments versionId parserVersion ⟨pair.1,pair.2,provisions⟩

def versionDocuments (ports : Ports sha256) (parserVersion : String) (versionId : UUID7) :
    Build (List NavigationDocument × String) :=
  fun p => (readVersion ports parserVersion p.reads versionId,{ p with reads := p.reads+1 })

/-- The fingerprints and the numbers of documents to be found again. -/
abbrev Summaries : Type := List (String × ℕ)

def preflight (ports : Ports sha256) (parserVersion : String) : List UUID7 → Build Summaries
  | [] => pure []
  | versionId::versionIds => do
    let (documents,digest) ← versionDocuments ports parserVersion versionId
    let summaries ← preflight ports parserVersion versionIds
    pure ((digest,documents.length)::summaries)

def ensureIndex (ports : Ports sha256) (indexName : String) : Build Unit :=
  fun p => (fromPort (ports.ensureNavigationIndex indexName),{ p with ensured := true })

def appendBatch (ports : Ports sha256) (indexName parserVersion : String)
    (batch : List NavigationDocument) : Build Unit :=
  fun p => (fromPort (ports.appendNavigationDocuments p.appends indexName batch parserVersion),
    { p with appends := p.appends+1, received := p.received++batch })

def appendBatches (ports : Ports sha256) (indexName parserVersion : String) :
    List (List NavigationDocument) → Build ℕ
  | [] => pure 0
  | batch::rest => do
    appendBatch ports indexName parserVersion batch
    let written ← appendBatches ports indexName parserVersion rest
    pure (batch.length+written)

def maxBatch : ℕ := 256

/-- The second round, over `zip(version_ids, summaries, strict=True)`. -/
def appendVersions (ports : Ports sha256) (indexName parserVersion : String) :
    List (UUID7 × (String × ℕ)) → Build ℕ
  | [] => pure 0
  | (versionId,expectedDigest,expectedSize)::rest => do
    let (documents,digest) ← versionDocuments ports parserVersion versionId
    Effect.require (digest = expectedDigest ∧ documents.length = expectedSize)
      (.valueError "navigation source changed after preflight")
    let written ← appendBatches ports indexName parserVersion (batches maxBatch documents)
    let others ← appendVersions ports indexName parserVersion rest
    pure (written+others)

def markReady (ports : Ports sha256) (mainIndexName : String) : Build Unit :=
  fun p => (fromPort (ports.markNavigationReady mainIndexName),{ p with ready := true })

def expectedCount (summaries : Summaries) : ℕ := (summaries.map Prod.snd).sum

/-- The index is marked after the check of the count. -/
def markCounted (ports : Ports sha256) (r : Request) (indexName : String) (count : Option ℤ) :
    Build NavigationBuildResult := do
  markReady ports r.mainIndexName
  pure ⟨indexName,(count.getD 0).toNat⟩

def writeIndex (ports : Ports sha256) (r : Request) (indexName : String) (summaries : Summaries) :
    Build NavigationBuildResult := do
  ensureIndex ports indexName
  let written ← appendVersions ports indexName r.parserVersion (r.versionIds.zip summaries)
  let count ← Effect.settle (fromPort (ports.countDocuments indexName))
  Effect.require (count.any (fun n : ℤ => decide (0 < n ∧ n = expectedCount summaries ∧
      n = written)) = true) (.runtimeError "navigation document count verification failed")
  markCounted ports r indexName count

def build (ports : Ports sha256) (r : Request) : Build NavigationBuildResult := do
  let indexName ← Effect.settle (navigationIndexName sha256 r.mainIndexName)
  Effect.settle (checkArguments r)
  let summaries ← preflight ports r.parserVersion r.versionIds
  writeIndex ports r indexName summaries

def start : Progress := ⟨0,0,false,[],false⟩

variable {ports : Ports sha256} {parserVersion : String}

abbrev ReadsFrom (ports : Ports sha256) (parserVersion : String) :
    ℕ → List UUID7 → List (List NavigationDocument × String) → Prop :=
  Numbered fun call versionId found =>
    readVersion ports parserVersion call versionId = .ok found

variable {found : List NavigationDocument × String} {versionId : UUID7} {summaries : Summaries}
  {versionIds : List UUID7} {parts : List (List NavigationDocument)}
  {documents : List NavigationDocument} {inputs : Set (List UInt8)}
  {outcome : Except NavigationFailure NavigationBuildResult}

theorem versionDocuments_done {p q : Progress} :
    versionDocuments ports parserVersion versionId p = (.ok found,q) ↔
      readVersion ports parserVersion p.reads versionId = .ok found ∧
        q = { p with reads := p.reads+1 } := by
  rw [versionDocuments,Prod.mk.injEq]
  exact and_congr_right fun _ => eq_comm

def summariesOf (found : List (List NavigationDocument × String)) : Summaries :=
  found.map fun f => (f.2,f.1.length)

theorem preflight_done {p q : Progress}
    (h : preflight ports parserVersion versionIds p = (.ok summaries,q)) :
    ∃ found, ReadsFrom ports parserVersion p.reads versionIds found ∧
      summaries = summariesOf found ∧ q = { p with reads := p.reads+versionIds.length } := by
  induction versionIds generalizing summaries p q with
  | nil =>
    obtain ⟨rfl,rfl⟩ := Effect.pure_done.mp h
    exact ⟨[],.nil _,rfl,rfl⟩
  | cons v vs ih =>
    obtain ⟨⟨documents,digest⟩,p₁,hread,h⟩ := Effect.bind_done.mp h
    obtain ⟨others,p₂,hrest,h⟩ := Effect.bind_done.mp h
    obtain ⟨rfl,rfl⟩ := Effect.pure_done.mp h
    obtain ⟨hfirst,rfl⟩ := versionDocuments_done.mp hread
    obtain ⟨found,hfound,rfl,rfl⟩ := ih hrest
    refine ⟨(documents,digest)::found,.cons hfirst hfound,rfl,?_⟩
    rw [List.length_cons,Nat.add_comm vs.length 1,← Nat.add_assoc]

variable {indexName : String} {r : Request}

theorem appendBatches_done {written : ℕ} {p q : Progress}
    (h : appendBatches ports indexName parserVersion parts p = (.ok written,q)) :
    q.received = p.received++parts.flatten ∧ q.reads = p.reads ∧
      written = parts.flatten.length := by
  induction parts generalizing written p q with
  | nil =>
    obtain ⟨rfl,rfl⟩ := Effect.pure_done.mp h
    exact ⟨(List.append_nil _).symm,rfl,rfl⟩
  | cons part parts ih =>
    obtain ⟨_,p₁,happend,h⟩ := Effect.bind_done.mp h
    obtain ⟨others,p₂,hrest,h⟩ := Effect.bind_done.mp h
    obtain ⟨rfl,rfl⟩ := Effect.pure_done.mp h
    obtain rfl := (Prod.mk.inj happend).2
    obtain ⟨hreceived,hreads,rfl⟩ := ih hrest
    refine ⟨?_,hreads,?_⟩
    · rw [hreceived,List.append_assoc,List.flatten_cons]
    · rw [List.flatten_cons,List.length_append]

/-- The second round finds every fingerprint again and appends what it has read. -/
theorem appendVersions_done {written : ℕ} {p q : Progress}
    (hlength : summaries.length = versionIds.length)
    (h : appendVersions ports indexName parserVersion (versionIds.zip summaries) p = (.ok
      written,q)) :
    ∃ found, ReadsFrom ports parserVersion p.reads versionIds found ∧
      summariesOf found = summaries ∧ q.received = p.received++found.flatMap Prod.fst ∧
      written = (found.flatMap Prod.fst).length := by
  induction versionIds generalizing summaries written p q with
  | nil =>
    obtain rfl := List.eq_nil_of_length_eq_zero hlength
    obtain ⟨rfl,rfl⟩ := Effect.pure_done.mp h
    exact ⟨[],.nil _,rfl,(List.append_nil _).symm,rfl⟩
  | cons v vs ih =>
    cases summaries with
    | nil => cases hlength
    | cons summary summaries =>
      obtain ⟨expectedDigest,expectedSize⟩ := summary
      obtain ⟨⟨documents,digest⟩,p₁,hread,h⟩ := Effect.bind_done.mp h
      obtain ⟨_,p₂,hrequire,h⟩ := Effect.bind_done.mp h
      obtain ⟨first,p₃,hfirst,h⟩ := Effect.bind_done.mp h
      obtain ⟨others,p₄,hrest,h⟩ := Effect.bind_done.mp h
      obtain ⟨rfl,rfl⟩ := Effect.pure_done.mp h
      obtain ⟨hagain,rfl⟩ := versionDocuments_done.mp hread
      obtain ⟨hsame,rfl⟩ := Effect.require_done.mp hrequire
      obtain ⟨hreceived,hreads,rfl⟩ := appendBatches_done hfirst
      obtain ⟨found,hfound,hsummaries,hmore,rfl⟩ := ih (Nat.succ.inj hlength) hrest
      rw [hreads] at hfound
      obtain ⟨rfl,rfl⟩ := hsame
      have hbatches : (batches maxBatch documents).flatten = documents :=
        batches_flatten (by decide) _
      rw [hbatches] at hreceived
      refine ⟨(documents,digest)::found,.cons hagain hfound,?_,?_,?_⟩
      · exact congrArg ((digest,documents.length)::·) hsummaries
      · rw [hmore,hreceived,List.append_assoc,List.flatMap_cons]
      · rw [hbatches,List.flatMap_cons,List.length_append]

def Unready (p : Progress) : Prop := p.ready = false

def Untouched (p : Progress) : Prop := p.ensured = false ∧ p.received = [] ∧ p.ready = false

theorem preflight_keeps {I : Progress → Prop} (hI : ∀ p n, I p → I { p with reads := n })
    (ports : Ports sha256) (parserVersion : String) (versionIds : List UUID7) :
    Effect.Keeps I (preflight ports parserVersion versionIds) := by
  induction versionIds with
  | nil => exact Effect.keeps_pure _
  | cons v vs ih =>
    apply Effect.keeps_bind
    · exact fun p h => hI p _ h
    · intro found
      exact Effect.keeps_bind ih fun summaries => Effect.keeps_pure _

theorem appendBatches_unready (parts : List (List NavigationDocument)) :
    Effect.Keeps Unready (appendBatches ports indexName parserVersion parts) := by
  induction parts with
  | nil => exact Effect.keeps_pure _
  | cons part parts ih =>
    apply Effect.keeps_bind
    · exact fun p h => h
    · intro _
      exact Effect.keeps_bind ih fun _ => Effect.keeps_pure _

theorem appendVersions_unready (expected : List (UUID7 × (String × ℕ))) :
    Effect.Keeps Unready (appendVersions ports indexName parserVersion expected) := by
  induction expected with
  | nil => exact Effect.keeps_pure _
  | cons e es ih =>
    apply Effect.keeps_bind
    · exact fun p h => h
    intro found
    apply Effect.keeps_bind
    · exact Effect.keeps_require _ _
    intro _
    apply Effect.keeps_bind
    · exact appendBatches_unready _
    · intro _
      exact Effect.keeps_bind ih fun _ => Effect.keeps_pure _

def Reads (ports : Ports sha256) (call : ℕ) (versionId : UUID7) (c : Contents sha256) : Prop :=
  ports.versionWithInstrument call versionId = .ok (some (c.version,c.instrument)) ∧
    ports.provisionsForVersion call versionId = .ok c.provisions

def hashInputs (ports : Ports sha256) (r : Request) : Set (List UInt8) :=
  {bytes | ∃ call < 2*r.versionIds.length, ∃ versionId ∈ r.versionIds, ∃ c,
    Reads ports call versionId c ∧ (bytes = c.stream r.parserVersion ∨
      bytes = identityBytes versionId .instrument [c.instrument.value.title] ∨
      ∃ p ∈ c.provisions, ∃ nodes, Structural p.value.structurePath nodes ∧
        bytes = identityBytes versionId .structure_ nodes)}

/-- The documents of a version whose contents were the same in both rounds. -/
def VersionNavigated (ports : Ports sha256) (parserVersion : String) (first second : ℕ)
    (versionId : UUID7) (documents : List NavigationDocument) : Prop :=
  ∃ c prefixes, Reads ports first versionId c ∧ Reads ports second versionId c ∧
    Navigates c (c.heading versionId parserVersion) documents prefixes

theorem fromPort_ok {α : Type} {x : Except String α} {a : α} : fromPort x = .ok a ↔ x = .ok a := by
  cases x with
  | ok b => simp [fromPort]
  | error _ => simp [fromPort]

theorem foundPair_ok {α : Type} {o : Option α} {a : α} : foundPair o = .ok a ↔ o = some a := by
  cases o with
  | none => simp [foundPair]
  | some b => simp [foundPair]

theorem readVersion_ok {call : ℕ} {digest : String}
    (h : readVersion ports parserVersion call versionId = .ok (documents,digest)) :
    ∃ c, Reads ports call versionId c ∧ digest = hex (sha256 (c.stream parserVersion)) ∧
      ∃ prefixes, Navigates c (c.heading versionId parserVersion) documents prefixes := by
  obtain ⟨found,hfound,h⟩ := bind_ok.mp h
  obtain ⟨pair,hpair,h⟩ := bind_ok.mp h
  obtain ⟨_,-,h⟩ := bind_ok.mp h
  obtain ⟨provisions,hprovisions,h⟩ := bind_ok.mp h
  obtain ⟨_,-,h⟩ := bind_ok.mp h
  obtain ⟨hdigest,hnavigates⟩ := contentDocuments_ok h
  rw [foundPair_ok] at hpair
  have hsource := fromPort_ok.mp hfound
  rw [hpair] at hsource
  exact ⟨⟨pair.1,pair.2,provisions⟩,⟨hsource,fromPort_ok.mp hprovisions⟩,hdigest,hnavigates⟩

theorem versionNavigated (hhash : Set.InjOn sha256 inputs) {call later : ℕ}
    {documents again : List NavigationDocument} {digest : String}
    (hinputs : ∀ n, n = call ∨ n = later → ∀ c, Reads ports n versionId c → c.stream parserVersion
      ∈ inputs)
    (hfirst : readVersion ports parserVersion call versionId = .ok (documents,digest))
    (hsecond : readVersion ports parserVersion later versionId = .ok (again,digest)) :
    VersionNavigated ports parserVersion call later versionId again := by
  obtain ⟨c,hc,hdigest,-⟩ := readVersion_ok hfirst
  obtain ⟨d,hd,hdigest',prefixes,hnavigates⟩ := readVersion_ok hsecond
  have hstream := hhash (hinputs _ (.inl rfl) c hc) (hinputs _ (.inr rfl) d hd)
    (hex_inj (hdigest.symm.trans hdigest'))
  obtain rfl := stream_inj hstream
  exact ⟨c,prefixes,hc,hd,hnavigates⟩

def navigationIds (documents : List NavigationDocument) : List String :=
  documents.map fun d => d.value.navigationId

abbrev Key : Type := NavigationDocumentKind × List String

variable (sha256) in
def idOf (versionId : UUID7) (key : Key) : String :=
  hex (sha256 (identityBytes versionId key.1 key.2))

variable (sha256) in
def Issued (inputs : Set (List UInt8)) (versionId : UUID7) (documents : List NavigationDocument) :
    Prop :=
  ∃ keys : List Key, keys.Nodup ∧ (∀ key ∈ keys, identityBytes versionId key.1 key.2 ∈ inputs) ∧
    navigationIds documents = keys.map (idOf sha256 versionId)

theorem idOf_inj (hhash : Set.InjOn sha256 inputs) {v w : UUID7} {k l : Key}
    (hk : identityBytes v k.1 k.2 ∈ inputs) (hl : identityBytes w l.1 l.2 ∈ inputs)
    (h : idOf sha256 v k = idOf sha256 w l) : v = w ∧ k = l := by
  obtain ⟨hversion,hkind,hpath⟩ := identityBytes_inj (hhash hk hl (hex_inj h))
  exact ⟨hversion,Prod.ext hkind hpath⟩

theorem issued_nodup (hhash : Set.InjOn sha256 inputs)
    (h : Issued sha256 inputs versionId documents) : (navigationIds documents).Nodup := by
  obtain ⟨keys,hkeys,hinputs,hids⟩ := h
  rw [hids]
  apply hkeys.map_on
  exact fun k hk l hl hsame => (idOf_inj hhash (hinputs k hk) (hinputs l hl) hsame).2

theorem issued_origin (h : List.Forall₂ (Issued sha256 inputs) versionIds parts) {id : String}
    (hid : id ∈ navigationIds parts.flatten) :
    ∃ versionId ∈ versionIds, ∃ key : Key, identityBytes versionId key.1 key.2 ∈ inputs ∧
      id = idOf sha256 versionId key := by
  induction h with
  | nil => cases hid
  | @cons v part vs parts hissued _ ih =>
    rw [List.flatten_cons,navigationIds,List.map_append] at hid
    rcases List.mem_append.mp hid with hid | hid
    · obtain ⟨keys,-,hinputs,hids⟩ := hissued
      have hmem : id ∈ keys.map (idOf sha256 v) := by
        rw [← hids]
        exact hid
      obtain ⟨key,hkey,rfl⟩ := List.mem_map.mp hmem
      exact ⟨_,List.mem_cons_self,key,hinputs key hkey,rfl⟩
    · obtain ⟨w,hw,hrest⟩ := ih hid
      exact ⟨w,List.mem_cons_of_mem _ hw,hrest⟩

theorem issued_flatten (hhash : Set.InjOn sha256 inputs) (honce : versionIds.Nodup)
    (h : List.Forall₂ (Issued sha256 inputs) versionIds parts) :
    (navigationIds parts.flatten).Nodup := by
  induction h with
  | nil => exact List.nodup_nil
  | @cons v part vs parts hissued hrest ih =>
    obtain ⟨hnew,honce⟩ := List.nodup_cons.mp honce
    rw [List.flatten_cons,navigationIds,List.map_append]
    apply List.nodup_append.mpr
    refine ⟨issued_nodup hhash hissued,ih honce,?_⟩
    rintro a ha b hb rfl
    obtain ⟨w,hw,key,hinput,hkey⟩ := issued_origin hrest hb
    obtain ⟨keys,-,hinputs,hids⟩ := hissued
    have hmem : a ∈ keys.map (idOf sha256 v) := by
      rw [← hids]
      exact ha
    obtain ⟨own,hown,hsame⟩ := List.mem_map.mp hmem
    obtain ⟨rfl,-⟩ := idOf_inj hhash (hinputs own hown) hinput (hsame.trans hkey)
    exact hnew hw

theorem navigates_issued {c : Contents sha256} {prefixes : List (List String)}
    (h : Navigates c (c.heading versionId parserVersion) documents prefixes)
    (hinstrument : identityBytes versionId .instrument [c.instrument.value.title] ∈ inputs)
    (hstructure : ∀ p ∈ c.provisions, ∀ nodes, Structural p.value.structurePath nodes →
      identityBytes versionId .structure_ nodes ∈ inputs) :
    Issued sha256 inputs versionId documents := by
  refine ⟨(.instrument,[c.instrument.value.title])::prefixes.map (Prod.mk .structure_ ·),?_,?_,?_⟩
  · apply List.nodup_cons.mpr
    constructor
    · intro hmem
      obtain ⟨nodes,-,hsame⟩ := List.mem_map.mp hmem
      cases (Prod.mk.inj hsame).1
    · exact h.once.map fun _ _ hsame => (Prod.mk.inj hsame).2
  · intro key hkey
    rcases List.mem_cons.mp hkey with rfl | hkey
    · exact hinstrument
    · obtain ⟨nodes,hnodes,rfl⟩ := List.mem_map.mp hkey
      obtain ⟨p,hp,hstructural⟩ := (h.exact_ nodes).mp hnodes
      exact hstructure p hp nodes hstructural
  · have hids := congrArg (List.map NavigationDocumentFields.navigationId) h.documents
    rw [List.map_map,List.map_cons,List.map_map] at hids
    rw [List.map_cons,List.map_map]
    exact hids

theorem markCounted_state (count : Option ℤ) (p : Progress) :
    (markCounted ports r indexName count p).2 = { p with ready := true } := by
  rw [markCounted]
  cases hmark : fromPort (ports.markNavigationReady r.mainIndexName) with
  | error e =>
    have hfail : markReady ports r.mainIndexName p = (.error e,{ p with ready := true }) := by
      rw [markReady,hmark]
    rw [Effect.bind_fails _ hfail]
  | ok u =>
    have hrun : markReady ports r.mainIndexName p = (.ok u,{ p with ready := true }) := by
      rw [markReady,hmark]
    rw [Effect.bind_runs _ hrun]
    rfl

theorem writeIndex_ready {p q : Progress} (hp : Unready p)
    (h : writeIndex ports r indexName summaries p = (outcome,q)) (hready : q.ready = true) :
    ∃ written u, appendVersions ports indexName r.parserVersion (r.versionIds.zip summaries)
        { p with ensured := true } = (.ok written,u) ∧ q = { u with ready := true } ∧
      ports.countDocuments indexName = .ok (some (written : ℤ)) := by
  have hlost : ¬ Unready q := fun hq => Bool.false_ne_true (hq.symm.trans hready)
  obtain ⟨_,p₁,hensure,hp₁,h⟩ := Effect.bind_passed (fun p hp => hp) hp h hlost
  obtain ⟨written,p₂,hwritten,hp₂,h⟩ :=
    Effect.bind_passed (appendVersions_unready _) hp₁ h hlost
  obtain ⟨count,p₃,hsettle,hp₃,h⟩ := Effect.bind_passed (Effect.keeps_settle _) hp₂ h hlost
  obtain ⟨_,p₄,hrequire,-,h⟩ := Effect.bind_passed (Effect.keeps_require _ _) hp₃ h hlost
  obtain rfl := (Prod.mk.inj hensure).2
  obtain ⟨hcount,rfl⟩ := Effect.settle_done.mp hsettle
  obtain ⟨hcounted,rfl⟩ := Effect.require_done.mp hrequire
  have hstate : (markCounted ports r indexName count p₂).2 = { p₂ with ready := true } :=
    markCounted_state count p₂
  rw [h] at hstate
  refine ⟨written,p₂,hwritten,hstate,?_⟩
  cases count with
  | none => exact absurd hcounted Bool.false_ne_true
  | some n => rw [fromPort_ok.mp hcount,(of_decide_eq_true hcounted).2.2]

theorem checkArguments_ok {u : Unit} (h : checkArguments r = .ok u) : r.versionIds.Nodup := by
  obtain ⟨_,-,h⟩ := bind_ok.mp h
  obtain ⟨_,-,h⟩ := bind_ok.mp h
  exact require_ok.mp h

theorem build_ready {p : Progress} (h : build ports r start = (outcome,p)) (hready : p.ready =
      true) :
    ∃ first second indexName, r.versionIds.Nodup ∧
      ReadsFrom ports r.parserVersion 0 r.versionIds first ∧
      ReadsFrom ports r.parserVersion r.versionIds.length r.versionIds second ∧
      summariesOf second = summariesOf first ∧ p.received = second.flatMap Prod.fst ∧
      navigationIndexName sha256 r.mainIndexName = .ok indexName ∧
      ports.countDocuments indexName = .ok (some (p.received.length : ℤ)) := by
  have hlost : ¬ Unready p := fun hp => Bool.false_ne_true (hp.symm.trans hready)
  have hstart : Unready start := rfl
  obtain ⟨indexName,p₁,hsettle,hp₁,h⟩ :=
    Effect.bind_passed (Effect.keeps_settle _) hstart h hlost
  obtain ⟨_,p₂,harguments,hp₂,h⟩ := Effect.bind_passed (Effect.keeps_settle _) hp₁ h hlost
  obtain ⟨summaries,p₃,hpreflight,hp₃,h⟩ :=
    Effect.bind_passed (preflight_keeps (fun _ _ hp => hp) _ _ _) hp₂ h hlost
  obtain ⟨hname,rfl⟩ := Effect.settle_done.mp hsettle
  obtain ⟨hcheck,rfl⟩ := Effect.settle_done.mp harguments
  obtain ⟨first,hfirst,rfl,rfl⟩ := preflight_done hpreflight
  obtain ⟨written,u,hwritten,rfl,hcount⟩ := writeIndex_ready hp₃ h hready
  have hlength : (summariesOf first).length = r.versionIds.length := by
    rw [summariesOf,List.length_map,numbered_length hfirst]
  obtain ⟨second,hsecond,hsame,hreceived,rfl⟩ := appendVersions_done hlength hwritten
  have hcall : (start : Progress).reads+r.versionIds.length = r.versionIds.length := Nat.zero_add _
  dsimp only at hsecond hreceived
  rw [hcall] at hsecond
  have hall : u.received = second.flatMap Prod.fst := hreceived
  refine ⟨first,second,indexName,checkArguments_ok hcheck,hfirst,hsecond,hsame,hall,hname,?_⟩
  change ports.countDocuments indexName = .ok (some (u.received.length : ℤ))
  rw [hall]
  exact hcount

theorem readVersion_inputs {call : ℕ} (hcall : call < 2*r.versionIds.length)
    (hversion : versionId ∈ r.versionIds)
    (h : readVersion ports r.parserVersion call versionId = .ok found) :
    Issued sha256 (hashInputs ports r) versionId found.1 := by
  obtain ⟨documents,digest⟩ := found
  obtain ⟨c,hc,-,prefixes,hnavigates⟩ := readVersion_ok h
  apply navigates_issued hnavigates
  · exact ⟨call,hcall,versionId,hversion,c,hc,.inr (.inl rfl)⟩
  · intro p hp nodes hnodes
    exact ⟨call,hcall,versionId,hversion,c,hc,.inr (.inr ⟨p,hp,nodes,hnodes,rfl⟩)⟩

theorem summaries_get {first second : List (List NavigationDocument × String)}
    (h : summariesOf second = summariesOf first) {i : ℕ} {a b : List NavigationDocument × String}
    (ha : first[i]? = some a) (hb : second[i]? = some b) : b.2 = a.2 := by
  have hget := congrArg (fun l : Summaries => l[i]?) h
  simp only [summariesOf,List.getElem?_map,ha,hb,Option.map_some,Option.some.injEq,
    Prod.mk.injEq] at hget
  exact hget.1

/-- The index is marked ready only with one instrument document and one document of each
structural prefix for every version, of contents that both rounds returned, all with
distinct identifiers; nothing is written when a version fails the preflight. -/
theorem index_navigated (ports : Ports sha256) (r : Request) :
    (Set.InjOn sha256 (hashInputs ports r) →
      ∀ outcome p, build ports r start = (outcome,p) → p.ready = true →
        ∃ parts : List (List NavigationDocument), parts.length = r.versionIds.length ∧
          p.received = parts.flatten ∧ (navigationIds p.received).Nodup ∧
          (∃ indexName, navigationIndexName sha256 r.mainIndexName = .ok indexName ∧
            ports.countDocuments indexName = .ok (some (p.received.length : ℤ))) ∧
          ∀ i versionId part, r.versionIds[i]? = some versionId → parts[i]? = some part →
            VersionNavigated ports r.parserVersion i (r.versionIds.length+i) versionId part) ∧
    ((∃ i versionId failure, r.versionIds[i]? = some versionId ∧
        readVersion ports r.parserVersion i versionId = .error failure) →
      ∃ failure p, build ports r start = (.error failure,p) ∧ Untouched p) := by
  constructor
  · intro hhash outcome p h hready
    obtain ⟨first,second,indexName,honce,hfirst,hsecond,hsame,hreceived,hname,hcount⟩ :=
      build_ready h hready
    have hparts : p.received = (second.map Prod.fst).flatten := by
      rw [hreceived,List.flatMap_def]
    refine ⟨second.map Prod.fst,?_,hparts,?_,⟨indexName,hname,hcount⟩,?_⟩
    · rw [List.length_map,numbered_length hsecond]
    · rw [hparts]
      apply issued_flatten hhash honce
      apply List.forall₂_map_right_iff.mpr
      apply numbered_forall hsecond
      intro i versionId found hi hread
      have hlength : i < r.versionIds.length := (List.getElem?_eq_some_iff.mp hi).1
      exact readVersion_inputs (by omega) (List.mem_of_getElem? hi) hread
    · intro i versionId part hi hpart
      obtain ⟨again,hagain,rfl⟩ := Option.map_eq_some_iff.mp (List.getElem?_map ▸ hpart)
      obtain ⟨found,hfound,hread⟩ := numbered_get hfirst hi
      obtain ⟨_,hgot,hreread⟩ := numbered_get hsecond hi
      obtain rfl := Option.some.inj (hagain.symm.trans hgot)
      obtain ⟨documents,digest⟩ := found
      obtain ⟨part,digest'⟩ := again
      obtain rfl : digest' = digest := summaries_get hsame hfound hagain
      have hlength : i < r.versionIds.length := (List.getElem?_eq_some_iff.mp hi).1
      rw [Nat.zero_add] at hread
      apply versionNavigated hhash _ hread hreread
      intro n hn c hc
      exact ⟨n,by omega,versionId,List.mem_of_getElem? hi,c,hc,.inl rfl⟩
  · rintro ⟨i,versionId,failure,hi,hfailure⟩
    cases hname : navigationIndexName sha256 r.mainIndexName with
    | error e =>
      exact ⟨e,start,Effect.bind_raised.mpr (.inl (by rw [Effect.settle,hname])),rfl,rfl,rfl⟩
    | ok indexName =>
      cases hcheck : checkArguments r with
      | error e =>
        refine ⟨e,start,?_,rfl,rfl,rfl⟩
        rw [build,Effect.bind_runs _ (show Effect.settle _ start = (.ok indexName,start) by
          rw [Effect.settle,hname])]
        exact Effect.bind_fails _ (by rw [Effect.settle,hcheck])
      | ok u =>
        have hstart : build ports r start =
            (preflight ports r.parserVersion r.versionIds >>=
              writeIndex ports r indexName) start := by
          rw [build,Effect.bind_runs _ (show Effect.settle _ start = (.ok indexName,start) by
            rw [Effect.settle,hname])]
          exact Effect.bind_runs _ (by rw [Effect.settle,hcheck])
        have huntouched := preflight_keeps (I := Untouched) (fun _ _ hp => hp) ports r.parserVersion
          r.versionIds start ⟨rfl,rfl,rfl⟩
        cases hpreflight : preflight ports r.parserVersion r.versionIds start with
        | mk outcome p =>
          rw [hpreflight] at huntouched
          cases outcome with
          | ok summaries =>
            obtain ⟨found,hfound,-,-⟩ := preflight_done hpreflight
            obtain ⟨_,-,hread⟩ := numbered_get hfound hi
            have hcall : (start : Progress).reads+i = i := Nat.zero_add i
            rw [hcall,hfailure] at hread
            cases hread
          | error e =>
            rw [hstart]
            exact ⟨e,p,Effect.bind_fails _ hpreflight,huntouched⟩

/-- Tells the texts of one version apart by their first byte and by the kind. -/
def shapeHash (bytes : List UInt8) : Digest :=
  if bytes.head? = some 123 then 0 else BitVec.ofNat 256 (bytes.getD 41 0).toNat

def sampleVersion : DatedVersion where
  version := ⟨⟨⟨0,1,0⟩,⟨0,2,0⟩,"2020",.current,none,none,none,none,none,none,none,none⟩,
    by decide⟩
  dated := by
    intro day hday
    simp [versionDates] at hday

def sampleInstrument : LegalInstrument :=
  ⟨⟨⟨0,2,0⟩,"Code","NPC","CN",none,.law⟩,by decide⟩

def sampleProvision : Provision shapeHash :=
  ⟨⟨⟨0,3,0⟩,⟨0,1,0⟩,"1",.article,["第1章"],none,['a'],shapeHash (encode ['a']),0,1⟩,by
    simp [provisionChecks,firstError]
    decide⟩

def samplePorts : Ports shapeHash where
  versionWithInstrument _ _ := .ok (some (sampleVersion,sampleInstrument))
  provisionsForVersion _ _ := .ok [sampleProvision]
  ensureNavigationIndex _ := .ok ()
  appendNavigationDocuments _ _ _ _ := .ok ()
  countDocuments _ := .ok (some 2)
  markNavigationReady _ := .ok ()

def sampleRequest (versionId : UUID7) : Request := ⟨[versionId],"laws-1","docx-v1"⟩

def sampleContents : Contents shapeHash := ⟨sampleVersion,sampleInstrument,[sampleProvision]⟩

theorem sample_inputs {bytes : List UInt8}
    (h : bytes ∈ hashInputs samplePorts (sampleRequest ⟨0,1,0⟩)) :
    bytes = sampleContents.stream "docx-v1" ∨ bytes = identityBytes ⟨0,1,0⟩ .instrument ["Code"] ∨
      bytes = identityBytes ⟨0,1,0⟩ .structure_ ["第1章"] := by
  obtain ⟨call,-,versionId,hversion,⟨version,instrument,provisions⟩,⟨hpair,hprovisions⟩,h⟩ := h
  obtain rfl := List.mem_singleton.mp hversion
  obtain ⟨rfl,rfl⟩ := Prod.mk.inj (Option.some.inj (Except.ok.inj hpair))
  obtain rfl := Except.ok.inj hprovisions
  rcases h with h | h | ⟨p,hp,nodes,hnodes,h⟩
  · exact .inl h
  · exact .inr (.inl h)
  · obtain rfl := List.mem_singleton.mp hp
    obtain ⟨⟨more,hne,hmore,hnodes⟩,-⟩ := structural_beyond.mp hnodes
    rw [List.nil_append] at hnodes
    subst hnodes
    cases nodes with
    | nil => exact absurd rfl hne
    | cons node rest =>
      obtain ⟨rfl,hrest⟩ := List.cons_prefix_cons.mp hmore
      obtain rfl := List.prefix_nil.mp hrest
      exact .inr (.inr h)

theorem sample_injective :
    Set.InjOn shapeHash (hashInputs samplePorts (sampleRequest ⟨0,1,0⟩)) := by
  have hstream : shapeHash (sampleContents.stream "docx-v1") = 0 := by decide
  have hinstrument : shapeHash (identityBytes ⟨0,1,0⟩ .instrument ["Code"]) = 105 := by
    decide
  have hstructure : shapeHash (identityBytes ⟨0,1,0⟩ .structure_ ["第1章"]) = 115 := by
    decide
  intro a ha b hb h
  rcases sample_inputs ha with rfl | rfl | rfl
  · rcases sample_inputs hb with rfl | rfl | rfl
    · rfl
    · exact absurd (hstream.symm.trans (h.trans hinstrument)) (by decide)
    · exact absurd (hstream.symm.trans (h.trans hstructure)) (by decide)
  · rcases sample_inputs hb with rfl | rfl | rfl
    · exact absurd (hinstrument.symm.trans (h.trans hstream)) (by decide)
    · rfl
    · exact absurd (hinstrument.symm.trans (h.trans hstructure)) (by decide)
  · rcases sample_inputs hb with rfl | rfl | rfl
    · exact absurd (hstructure.symm.trans (h.trans hstream)) (by decide)
    · exact absurd (hstructure.symm.trans (h.trans hinstrument)) (by decide)
    · rfl

/-- The chapter is indexed, and nothing is written under the id of another version. -/
theorem chapter_navigated : (∃ parts : List (List NavigationDocument), parts.length = 1 ∧
      ∀ part, parts[0]? = some part → VersionNavigated samplePorts "docx-v1" 0 1 ⟨0,1,0⟩ part) ∧
    ∃ failure p, build samplePorts (sampleRequest ⟨0,9,0⟩) start = (.error failure,p) ∧
      Untouched p := by
  have hready : (build samplePorts (sampleRequest ⟨0,1,0⟩) start).2.ready = true := by
    decide +kernel
  have hfails : (readVersion samplePorts "docx-v1" 0 ⟨0,9,0⟩).isOk = false := by decide
  constructor
  · cases hrun : build samplePorts (sampleRequest ⟨0,1,0⟩) start with
    | mk outcome p =>
      rw [hrun] at hready
      obtain ⟨parts,hlength,-,-,-,hversions⟩ :=
        (index_navigated samplePorts (sampleRequest ⟨0,1,0⟩)).1 sample_injective outcome p hrun
          hready
      exact ⟨parts,hlength,fun part hpart => hversions 0 ⟨0,1,0⟩ part rfl hpart⟩
  · cases hread : readVersion samplePorts "docx-v1" 0 ⟨0,9,0⟩ with
    | ok _ =>
      rw [hread] at hfails
      cases hfails
    | error failure =>
      exact (index_navigated samplePorts (sampleRequest ⟨0,9,0⟩)).2 ⟨0,⟨0,9,0⟩,failure,rfl,hread⟩

end LawyerAgent.NavigationIndex
