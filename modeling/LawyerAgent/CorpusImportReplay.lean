import LawyerAgent.CorpusImport
import LawyerAgent.JsonReader
import LawyerAgent.Relational.Run
import Mathlib.Data.Set.Function

/-!
# Replays of an import

What the service writes for a command can be read off the stored rows, and the
bytes behind the content hash of the two exact profiles determine the
provisions. Those of the other profiles determine only the joined texts.
-/

set_option autoImplicit false

namespace LawyerAgent.CorpusImportReplay
open Relational Common PythonText LegalVersions
open LegalCorpus CorpusImport
open CanonicalJson (encode)
open JsonReader (encode_inj)
open Codes

variable {sha256 : List UInt8 → Digest}

theorem utf8_inj {s t : String} (h : utf8 s = utf8 t) : s = t :=
  String.toList_inj.mp (encode_inj h)

theorem hashValue_delimited : Delimited (fun value => value.length < 256^8) hashValue :=
  delimited_raw (toBytes_delimited 8)

theorem hashField_delimited (name : String) :
    Delimited (fun value => value.length < 256^8) (hashField name) :=
  delimited_after (hashName name) hashValue_delimited

theorem textField_delimited (name : String) :
    Delimited (fun text => (utf8 text).length < 256^8) fun text => hashField name (utf8 text) :=
  delimited_map utf8 (hashField_delimited name) (fun _ h => h) fun _ _ _ _ h => utf8_inj h

theorem levelField_delimited :
    Delimited (fun _ => True) fun level : ProvisionLevel =>
      hashField "level" (utf8 level.value) := by
  apply delimited_map ProvisionLevel.value (textField_delimited "level")
  · intro level _
    cases level <;> decide
  · exact fun _ _ _ _ h => level_value_inj h

theorem path_delimited :
    Delimited (fun path : List String => path.length < 256^8 ∧
      ∀ part ∈ path, (utf8 part).length < 256^8)
      fun path => toBytes 8 path.length++path.flatMap fun part =>
        hashField "structure_path" (utf8 part) :=
  delimited_counted (toBytes_delimited 8) (textField_delimited "structure_path")

theorem nullableValue_delimited :
    Delimited (fun o : Option (List UInt8) => ∀ value ∈ o, value.length < 256^8) nullableValue := by
  have hmarks : (0 : UInt8) ≠ 1 := by decide
  have hoption := delimited_option hmarks hashValue_delimited
  intro o u ho hu r s h
  refine hoption o u ho hu r s ?_
  cases o <;> cases u <;> exact h

theorem titleField_delimited :
    Delimited (fun title : Option String => ∀ t ∈ title, (utf8 t).length < 256^8)
      fun title => hashNullableField "title" (title.map utf8) := by
  apply delimited_after (hashName "title")
  apply delimited_map (Option.map utf8) nullableValue_delimited
  · intro title h value hvalue
    obtain ⟨t,ht,rfl⟩ := Option.map_eq_some_iff.mp hvalue
    exact h t ht
  · exact fun _ _ _ _ h => Option.map_injective (fun _ _ => utf8_inj) h

theorem fullText_delimited :
    Delimited (fun text : List Char => (encode text).length < 256^8)
      fun text => hashField "full_text" (encode text) :=
  delimited_map encode (hashField_delimited "full_text") (fun _ h => h) fun _ _ _ _ h =>
    encode_inj h

theorem hashProvision_delimited : Delimited Sized hashProvision := by
  have hparts := delimited_after (utf8 "provision"++[0])
    (delimited_pair (textField_delimited "provision_no") (delimited_pair levelField_delimited
      (delimited_pair path_delimited (delimited_pair titleField_delimited fullText_delimited))))
  refine delimited_map (fun d : LegalProvisionDraft =>
    (d.provisionNo,d.level,d.structurePath,d.title,d.fullText)) hparts ?_ ?_
  · exact fun d h => ⟨h.provisionNo,trivial,⟨h.path,h.parts⟩,h.title,h.fullText⟩
  · rintro ⟨_,_,_,_,_⟩ ⟨_,_,_,_,_⟩ _ _ h
    cases h
    rfl

theorem exact_drafts {c d : LegalImportCommand} (hparser : c.parserVersion = d.parserVersion)
    (hexact : exactText c.parserVersion = true)
    (h : contentHashInput c.parserVersion c.provisions =
      contentHashInput d.parserVersion d.provisions) : c.provisions = d.provisions := by
  obtain ⟨domain,hdomain⟩ := Option.isSome_iff_exists.mp hexact
  rw [← hparser,contentHashInput,contentHashInput,hdomain] at h
  have hcode := delimited_after domain
    (delimited_counted (toBytes_delimited 8) hashProvision_delimited)
  exact delimited_inj hcode ⟨c.counted,c.sized⟩ ⟨d.counted,d.sized⟩ h

def joined (texts : List (List Char)) : List Char := texts.flatten

theorem encode_joined (texts : List (List Char)) :
    encode (joined texts) = texts.flatMap encode := by
  induction texts with
  | nil => rfl
  | cons text texts ih =>
    rw [List.flatMap_cons,← ih,joined,List.flatten_cons,encode,List.flatMap_append]
    rfl

theorem legacy_input {parserVersion : String} (h : exactText parserVersion = false)
    (drafts : List LegalProvisionDraft) : contentHashInput parserVersion drafts =
      encode (joined (drafts.map fun d => strip d.fullText)) := by
  have hdomain : exactTextHashDomain parserVersion = none := by
    simpa [exactText] using h
  rw [encode_joined,List.flatMap_map,contentHashInput,hdomain]

/-- A stored provision read as a draft. -/
def storedDraft (p : ProvisionFields) : LegalProvisionDraft :=
  ⟨p.provisionNo,p.level,p.structurePath,p.title,p.fullText⟩

def keptDraft (parserVersion : String) (d : LegalProvisionDraft) : LegalProvisionDraft :=
  {d with fullText := provisionText d.fullText parserVersion}

def storedDrafts (s : Corpus sha256) (versionId : UUID7) : List LegalProvisionDraft :=
  (provisionsForVersion s versionId).map fun p => storedDraft p.value

def keptDrafts (c : LegalImportCommand) : List LegalProvisionDraft :=
  c.provisions.map (keptDraft c.parserVersion)

theorem derived_drafts (sha256 : List UInt8 → Digest) (versionId : UUID7) (parserVersion : String)
    (newId : ℕ → UUID7) (cursor n : ℕ) (drafts : List LegalProvisionDraft) :
    (deriveProvisions sha256 versionId parserVersion newId cursor n drafts).map storedDraft =
      drafts.map (keptDraft parserVersion) := by
  induction drafts generalizing cursor n with
  | nil => rfl
  | cons d ds ih =>
    rw [deriveProvisions,List.map_cons,List.map_cons,ih]
    rfl

theorem derived_version {versionId : UUID7} {parserVersion : String} {newId : ℕ → UUID7}
    {cursor n : ℕ} {drafts : List LegalProvisionDraft} {p : ProvisionFields}
    (hp : p ∈ deriveProvisions sha256 versionId parserVersion newId cursor n drafts) :
    p.versionId = versionId ∧ cursor ≤ p.charStart := by
  induction drafts generalizing cursor n with
  | nil => cases hp
  | cons d ds ih =>
    rcases List.mem_cons.mp hp with rfl | hp
    · exact ⟨rfl,le_refl _⟩
    · obtain ⟨hversion,hstart⟩ := ih hp
      exact ⟨hversion,by omega⟩

theorem derived_order (sha256 : List UInt8 → Digest) (versionId : UUID7) (parserVersion : String)
    (newId : ℕ → UUID7) (cursor n : ℕ) (drafts : List LegalProvisionDraft) :
    (deriveProvisions sha256 versionId parserVersion newId cursor n drafts).Pairwise
      fun p q => p.charStart ≤ q.charStart := by
  induction drafts generalizing cursor n with
  | nil => exact List.Pairwise.nil
  | cons d ds ih =>
    rw [deriveProvisions,List.pairwise_cons]
    refine ⟨fun p hp => ?_,ih _ _⟩
    have hstart := (derived_version hp).2
    change cursor ≤ p.charStart
    omega

theorem newProvisions_ok {fields : List ProvisionFields} {ps : List (Provision sha256)}
    (h : newProvisions sha256 fields = .ok ps) : ps.map Checked.value = fields := by
  induction fields generalizing ps with
  | nil =>
    cases h
    rfl
  | cons p fields ih =>
    rw [newProvisions] at h
    cases hp : postInit (provisionChecks sha256) p with
    | error message =>
      rw [hp] at h
      cases h
    | ok provision =>
      rw [hp] at h
      cases hps : newProvisions sha256 fields with
      | error e =>
        rw [hps] at h
        cases h
      | ok provisions =>
        rw [hps] at h
        cases h
        rw [List.map_cons,postInit_ok hp,ih hps]

/-- What an import leaves: the rows it found, or one more version with its
provisions. -/
inductive Imported (c : ImportCall) (s t : Corpus sha256) : Prop where
  | replayed (versions : t.versions = s.versions) (provisions : t.provisions = s.provisions)
  | written (v : LegalVersion) (ps : List (Provision sha256)) (instrumentId : UUID7)
      (version : v.value = newVersion sha256 c instrumentId)
      (derived : ps.map Checked.value = deriveProvisions sha256 c.versionId c.command.parserVersion
        c.provisionId 0 0 c.command.provisions)
      (versions : t.versions.rows = v::s.versions.rows)
      (provisions : t.provisions.rows = ps++s.provisions.rows)

theorem reuseInstrument_ok {c : ImportCall} {found : Option LegalInstrument} {i : LegalInstrument}
    {s t : Corpus sha256} (h : reuseInstrument c found s = .ok (i,t)) :
    t.versions = s.versions ∧ t.provisions = s.provisions := by
  cases found with
  | none =>
    simp only [reuseInstrument,createInstrument,bind_ok,ofExcept_ok,zoom_ok,pure_ok] at h
    obtain ⟨_,_,⟨-,rfl⟩,_,_,⟨_,-,rfl⟩,-,rfl⟩ := h
    exact ⟨rfl,rfl⟩
  | some found =>
    cases hconflict : instrumentConflict found c.command with
    | some message =>
      simp only [reuseInstrument,hconflict] at h
      cases h
    | none =>
      simp only [reuseInstrument,hconflict,pure_ok] at h
      obtain ⟨-,rfl⟩ := h
      exact ⟨rfl,rfl⟩

theorem writeVersion_ok {c : ImportCall} {instrumentId : UUID7} {r : LegalImportResult}
    {s t : Corpus sha256} (h : writeVersion c instrumentId s = .ok (r,t)) : Imported c s t := by
  simp only [writeVersion,createVersion,bind_ok,ofExcept_ok,require_ok,zoom_ok,insertRow_ok,
    insertRows_ok,pure_ok] at h
  obtain ⟨ps,_,⟨hps,rfl⟩,v,_,⟨hv,rfl⟩,_,_,⟨_,_,⟨-,rfl⟩,versions,hversions,rfl⟩,_,_,
    ⟨provisions,hprovisions,rfl⟩,-,rfl⟩ := h
  exact .written v ps instrumentId (postInit_ok hv) (newProvisions_ok hps) hversions hprovisions

theorem importVersion_ok {c : ImportCall} {r : LegalImportResult} {s t : Corpus sha256}
    (h : importVersion c s = .ok (r,t)) : Imported c s t := by
  simp only [importVersion,findInstrumentByIdentity,findVersion,bind_ok,ofExcept_ok,read_ok] at h
  obtain ⟨_,_,⟨-,rfl⟩,found,_,⟨-,rfl⟩,i,u,hreuse,existing,_,⟨-,rfl⟩,h⟩ := h
  obtain ⟨hversions,hprovisions⟩ := reuseInstrument_ok hreuse
  cases existing with
  | some v =>
    rw [writeOrReplay,replayVersion] at h
    split at h
    · obtain ⟨-,rfl⟩ := pure_ok.mp h
      exact .replayed hversions hprovisions
    · cases h
  | none =>
    cases writeVersion_ok h with
    | replayed versions provisions =>
      exact .replayed (versions.trans hversions) (provisions.trans hprovisions)
    | written v ps instrumentId version derived versions provisions =>
      rw [hversions] at versions
      rw [hprovisions] at provisions
      exact .written v ps instrumentId version derived versions provisions

section Flush

variable {s t : Corpus sha256} {versionId : UUID7} {ps : List (Provision sha256)}

theorem provisions_new (hrows : t.provisions.rows = ps++s.provisions.rows)
    (hnew : ∀ p ∈ ps, p.value.versionId = versionId)
    (hfresh : ∀ p ∈ s.provisions, p.value.versionId ≠ versionId)
    (horder : ps.Pairwise earlierStart) : provisionsForVersion t versionId = ps := by
  have hall : ps.filter (fun p => p.value.versionId == versionId) = ps :=
    List.filter_eq_self.mpr fun p hp => beq_iff_eq.mpr (hnew p hp)
  have hnone : s.provisions.rows.filter (fun p => p.value.versionId == versionId) = [] :=
    List.filter_eq_nil_iff.mpr fun p hp h => hfresh p hp (beq_iff_eq.mp h)
  rw [provisionsForVersion,selectRows,hrows,List.filter_append,hall,hnone,List.append_nil]
  exact horder.insertionSort_eq

theorem provisions_kept (hrows : t.provisions.rows = ps++s.provisions.rows)
    (hother : ∀ p ∈ ps, p.value.versionId ≠ versionId) :
    provisionsForVersion t versionId = provisionsForVersion s versionId := by
  have hnone : ps.filter (fun p => p.value.versionId == versionId) = [] :=
    List.filter_eq_nil_iff.mpr fun p hp h => hother p hp (beq_iff_eq.mp h)
  rw [provisionsForVersion,provisionsForVersion,selectRows,selectRows,hrows,List.filter_append,
    hnone,List.nil_append]

end Flush

inductive CorpusOp (sha256 : List UInt8 → Digest) where
  | importVersion (call : ImportCall)
  | replaceChunks (versionId : UUID7) (chunks : List (LegalChunk sha256))

def CorpusOp.effect : CorpusOp sha256 → CorpusTx sha256 Unit
  | .importVersion call => do
    let _ ← CorpusImport.importVersion call
    pure ()
  | .replaceChunks versionId chunks => replaceChunksForVersion versionId chunks

def step (op : CorpusOp sha256) (s : Corpus sha256) : Corpus sha256 := commit op.effect s

def emptyCorpus (sha256 : List UInt8 → Digest) : Corpus sha256 :=
  ⟨Table.empty,Table.empty,Table.empty,Table.empty⟩

def commandsOf (ops : List (CorpusOp sha256)) : Set LegalImportCommand :=
  {c | ∃ call, CorpusOp.importVersion call ∈ ops ∧ call.command = c}

/-- A stored version is what the import of a command wrote. -/
structure Written (c : LegalImportCommand) (s : Corpus sha256) (v : LegalVersion) : Prop where
  parserVersion : v.value.parserVersion = some c.parserVersion
  contentHash : v.value.contentHash = some (contentHash sha256 c.parserVersion c.provisions)
  drafts : storedDrafts s v.value.id = keptDrafts c

structure Recorded (commands : Set LegalImportCommand) (s : Corpus sha256) : Prop where
  versions : ∀ v ∈ s.versions, ∃ c ∈ commands, Written c s v
  provisions : ∀ p ∈ s.provisions, ∃ v ∈ s.versions, v.value.id = p.value.versionId

variable {commands : Set LegalImportCommand} {c : LegalImportCommand}

theorem recorded_same {s t : Corpus sha256} (hs : Recorded commands s)
    (hversions : t.versions = s.versions) (hprovisions : t.provisions = s.provisions) :
    Recorded commands t := by
  constructor
  · intro v hv
    rw [hversions] at hv
    obtain ⟨c,hc,hwritten⟩ := hs.versions v hv
    refine ⟨c,hc,hwritten.parserVersion,hwritten.contentHash,?_⟩
    rw [← hwritten.drafts,storedDrafts,storedDrafts,provisionsForVersion,provisionsForVersion,
      hprovisions]
  · intro p hp
    rw [hprovisions] at hp
    rw [hversions]
    exact hs.provisions p hp

theorem recorded_import {call : ImportCall} {s t : Corpus sha256} (hs : Recorded commands s)
    (hcall : call.command ∈ commands) (h : Imported call s t) : Recorded commands t := by
  cases h with
  | replayed versions provisions => exact recorded_same hs versions provisions
  | written v ps instrumentId version derived versions provisions =>
    have hid : v.value.id = call.versionId := by rw [version]; rfl
    have hnew : ∀ p ∈ ps, p.value.versionId = call.versionId := by
      intro p hp
      have hmem := List.mem_map_of_mem (f := Checked.value) hp
      rw [derived] at hmem
      exact (derived_version hmem).1
    have hfresh : ∀ w ∈ s.versions, w.value.id ≠ call.versionId := by
      intro w hw hsame
      exact (inserted_fresh versions hw).1 (hid.trans hsame.symm)
    have hnone : ∀ p ∈ s.provisions, p.value.versionId ≠ call.versionId := by
      intro p hp hsame
      obtain ⟨w,hw,hversion⟩ := hs.provisions p hp
      exact hfresh w hw (hversion.trans hsame)
    have horder : ps.Pairwise earlierStart := by
      have hderived := derived_order sha256 call.versionId call.command.parserVersion
        call.provisionId 0 0 call.command.provisions
      rw [← derived,List.pairwise_map] at hderived
      exact hderived
    constructor
    · intro w hw
      rcases (inserted_mem versions).mp hw with rfl | hw
      · refine ⟨call.command,hcall,by rw [version]; rfl,by rw [version]; rfl,?_⟩
        rw [storedDrafts,hid,provisions_new provisions hnew hnone horder,keptDrafts,
          ← derived_drafts sha256 call.versionId call.command.parserVersion
            call.provisionId 0 0,← derived,List.map_map]
        rfl
      · obtain ⟨c,hc,hwritten⟩ := hs.versions w hw
        refine ⟨c,hc,hwritten.parserVersion,hwritten.contentHash,?_⟩
        have hother : ∀ p ∈ ps, p.value.versionId ≠ w.value.id := by
          intro p hp hsame
          exact hfresh w hw (hsame.symm.trans (hnew p hp))
        rw [← hwritten.drafts,storedDrafts,storedDrafts,provisions_kept provisions hother]
    · intro p hp
      rw [mem_rows,provisions] at hp
      rcases List.mem_append.mp hp with hp | hp
      · exact ⟨v,(inserted_mem versions).mpr (Or.inl rfl),hid.trans (hnew p hp).symm⟩
      · obtain ⟨w,hw,hversion⟩ := hs.provisions p hp
        exact ⟨w,(inserted_mem versions).mpr (Or.inr hw),hversion⟩

theorem insertLayers_kept {layers : List (List (LegalChunk sha256))} {s t : Corpus sha256}
    {u : Unit}
    (h : insertLayers layers s = .ok (u,t)) :
    t.versions = s.versions ∧ t.provisions = s.provisions := by
  induction layers generalizing s with
  | nil =>
    obtain ⟨-,rfl⟩ := pure_ok.mp h
    exact ⟨rfl,rfl⟩
  | cons layer layers ih =>
    simp only [insertLayers,bind_ok,zoom_ok] at h
    obtain ⟨_,_,⟨_,-,rfl⟩,h⟩ := h
    have hkept := ih h
    exact hkept

theorem replaceChunks_kept {versionId : UUID7} {chunks : List (LegalChunk sha256)}
    {s t : Corpus sha256} {u : Unit} (h : replaceChunksForVersion versionId chunks s = .ok (u,t)) :
    t.versions = s.versions ∧ t.provisions = s.provisions := by
  simp only [replaceChunksForVersion,bind_ok,read_ok,require_ok,ofExcept_ok,zoom_ok] at h
  obtain ⟨_,_,⟨-,rfl⟩,_,_,⟨-,rfl⟩,_,_,⟨-,rfl⟩,_,_,⟨-,rfl⟩,_,_,⟨-,rfl⟩,_,_,⟨_,-,rfl⟩,h⟩ := h
  have hkept := insertLayers_kept h
  exact hkept

theorem recorded_step {op : CorpusOp sha256} {s : Corpus sha256} (hop : commandsOf [op] ⊆ commands)
    (hs : Recorded commands s) :
    Recorded commands (step op s) := by
  apply commit_of hs
  intro u t h
  cases op with
  | importVersion call =>
    simp only [CorpusOp.effect,bind_ok,pure_ok] at h
    obtain ⟨r,_,h,-,rfl⟩ := h
    exact recorded_import hs (hop ⟨call,List.mem_singleton_self _,rfl⟩) (importVersion_ok h)
  | replaceChunks versionId chunks =>
    obtain ⟨hversions,hprovisions⟩ := replaceChunks_kept h
    exact recorded_same hs hversions hprovisions

theorem recorded_run (ops : List (CorpusOp sha256)) (s : Corpus sha256)
    (hops : commandsOf ops ⊆ commands) (hs : Recorded commands s) :
    Recorded commands (run step ops s) := by
  induction ops generalizing s with
  | nil => exact hs
  | cons op ops ih =>
    apply ih
    · rintro c ⟨call,hcall,rfl⟩
      exact hops ⟨call,List.mem_cons_of_mem _ hcall,rfl⟩
    · apply recorded_step _ hs
      rintro c ⟨call,hcall,rfl⟩
      rw [List.mem_singleton] at hcall
      exact hops ⟨call,hcall ▸ List.mem_cons_self,rfl⟩

theorem recorded_history (ops : List (CorpusOp sha256)) :
    Recorded (commandsOf ops) (run step ops (emptyCorpus sha256)) := by
  apply recorded_run ops _ (Set.Subset.refl _)
  constructor
  · exact fun v hv => absurd hv (not_mem_empty v)
  · exact fun p hp => absurd hp (not_mem_empty p)

/-- What the metadata of a command has in common with a stored version. -/
structure SameMetadata (i : LegalInstrument) (v : LegalVersion) (c : LegalImportCommand) :
    Prop where
  issuingAuthority : i.value.issuingAuthority = c.issuingAuthority
  category : i.value.category = c.category
  regionCode : i.value.regionCode = c.regionCode
  versionLabel : v.value.versionLabel = c.versionLabel
  status : v.value.status = c.status
  publishedOn : v.value.publishedOn = c.publishedOn
  effectiveOn : v.value.effectiveOn = c.effectiveOn
  repealedOn : v.value.repealedOn = c.repealedOn
  lawNumber : v.value.lawNumber = c.lawNumber
  sourceRef : v.value.sourceRef = some c.sourceRef
  datasetVersion : v.value.datasetVersion = some c.datasetVersion
  parserVersion : v.value.parserVersion = some c.parserVersion

def SameProvisions (s : Corpus sha256) (v : LegalVersion) (c : LegalImportCommand) : Prop :=
  storedDrafts s v.value.id = keptDrafts c

/-- The stored texts and those of the command are the same one after the other. -/
def SameText (s : Corpus sha256) (v : LegalVersion) (c : LegalImportCommand) : Prop :=
  joined ((storedDrafts s v.value.id).map LegalProvisionDraft.fullText) =
    joined ((keptDrafts c).map LegalProvisionDraft.fullText)

theorem instrumentConflict_none {i : LegalInstrument} :
    instrumentConflict i c = none ↔ i.value.issuingAuthority = c.issuingAuthority ∧
      i.value.category = c.category ∧ i.value.regionCode = c.regionCode := by
  unfold instrumentConflict
  split_ifs with hauthority hcategory hregion
  · simp [hauthority]
  · simp [hcategory]
  · simp [hregion]
  · simp only [ne_eq,not_not] at hauthority hcategory hregion
    simp [hauthority,hcategory,hregion]

section Later

variable {call : ImportCall} {s : Corpus sha256} {i : LegalInstrument} {v : LegalVersion}

/-- The stored instrument and version that a call names. -/
structure Names (s : Corpus sha256) (i : LegalInstrument) (v : LegalVersion)
    (c : LegalImportCommand) : Prop where
  instrument : i ∈ s.instruments
  title : i.value.title = c.title
  jurisdiction : i.value.jurisdiction = c.jurisdiction
  version : v ∈ s.versions
  owner : v.value.instrumentId = i.value.id
  label : v.value.versionLabel = c.versionLabel

theorem findInstrument_names (h : Names s i v call.command) :
    findInstrumentByIdentity call.command.title call.command.jurisdiction s = .ok (some i,s) := by
  refine read_ok.mpr ⟨?_,rfl⟩
  apply selectRow_eq h.instrument
  · simp [h.title,h.jurisdiction]
  · intro j hj hsame
    apply eq_of_clash hj h.instrument
    simpa [legalInstruments,h.title,h.jurisdiction] using hsame

theorem findVersion_names (h : Names s i v call.command) :
    findVersion i.value.id call.command.versionLabel s = .ok (some v,s) := by
  refine read_ok.mpr ⟨?_,rfl⟩
  apply selectRow_eq h.version
  · simp [h.owner,h.label]
  · intro w hw hsame
    apply eq_of_clash hw h.version
    simpa [legalVersions,h.owner,h.label] using hsame

theorem import_named (hvalid : validateImportCommand call.command = .ok ())
    (h : Names s i v call.command) : importVersion call s =
      match instrumentConflict i call.command with
      | some message => .error (.importConflict message)
      | none => replayVersion call i.value.id v s := by
  have hvalidate : (ofExcept id (validateImportCommand call.command) : CorpusTx sha256 Unit) s =
      .ok ((),s) := ofExcept_ok.mpr ⟨hvalid,rfl⟩
  rw [importVersion,bind_run hvalidate,bind_run (findInstrument_names h)]
  cases hconflict : instrumentConflict i call.command with
  | some message =>
    apply bind_stop
    simp only [reuseInstrument,hconflict]
    rfl
  | none =>
    have hreuse : reuseInstrument call (some i) s = .ok (i,s) := by
      simp only [reuseInstrument,hconflict,pure_ok,and_self]
    rw [bind_run hreuse,bind_run (findVersion_names h)]
    rfl

theorem import_replays (hvalid : validateImportCommand call.command = .ok ())
    (h : Names s i v call.command) (hconflict : instrumentConflict i call.command = none)
    (hmatches : versionMatches sha256 v call.command) :
    importVersion call s = .ok (⟨i.value.id,v.value.id,true⟩,s) := by
  rw [import_named hvalid h,hconflict]
  simp only [replayVersion,if_pos hmatches]
  rfl

theorem import_conflicts (hvalid : validateImportCommand call.command = .ok ())
    (h : Names s i v call.command)
    (hdiffers : ¬(instrumentConflict i call.command = none ∧
      versionMatches sha256 v call.command)) :
    ∃ message, importVersion call s = .error (.importConflict message) := by
  rw [import_named hvalid h]
  cases hconflict : instrumentConflict i call.command with
  | some message => exact ⟨message,rfl⟩
  | none =>
    have hmatches : ¬versionMatches sha256 v call.command := fun hmatches =>
      hdiffers ⟨hconflict,hmatches⟩
    simp only [replayVersion,if_neg hmatches]
    exact ⟨_,rfl⟩

theorem matches_iff : (instrumentConflict i call.command = none ∧
      versionMatches sha256 v call.command) ↔ SameMetadata i v call.command ∧
      v.value.contentHash =
        some (contentHash sha256 call.command.parserVersion call.command.provisions) := by
  rw [instrumentConflict_none]
  constructor
  · rintro ⟨⟨ha,hc,hr⟩,hl,hs,hp,he,hrep,hn,hsrc,hd,hparser,hhash⟩
    exact ⟨⟨ha,hc,hr,hl,hs,hp,he,hrep,hn,hsrc,hd,hparser⟩,hhash⟩
  · rintro ⟨⟨ha,hc,hr,hl,hs,hp,he,hrep,hn,hsrc,hd,hparser⟩,hhash⟩
    exact ⟨⟨ha,hc,hr⟩,hl,hs,hp,he,hrep,hn,hsrc,hd,hparser,hhash⟩

end Later

theorem keptDrafts_exact (h : exactText c.parserVersion = true) :
    keptDrafts c = c.provisions := by
  have hsame : keptDraft c.parserVersion = id := by
    funext d
    simp [keptDraft,provisionText,h]
  rw [keptDrafts,hsame,List.map_id]

theorem keptDrafts_legacy (h : exactText c.parserVersion = false) :
    (keptDrafts c).map LegalProvisionDraft.fullText = c.provisions.map fun d =>
      strip d.fullText := by
  rw [keptDrafts,List.map_map]
  refine List.map_congr_left fun d _ => ?_
  simp [keptDraft,provisionText,h]

theorem sameText_of_provisions {s : Corpus sha256} {v : LegalVersion} (h : SameProvisions s v c) :
    SameText s v c := by
  rw [SameText,h]

/-- The hashes of two commands of one parser version are equal if and only if
their provisions are, or for a profile that is not exact their joined texts. -/
theorem contentHash_iff {c d : LegalImportCommand} {s : Corpus sha256} {v : LegalVersion}
    {inputs : Set (List UInt8)} (hinj : Set.InjOn sha256 inputs)
    (hc : contentHashInput c.parserVersion c.provisions ∈ inputs)
    (hd : contentHashInput d.parserVersion d.provisions ∈ inputs)
    (hwritten : Written d s v) (hparser : d.parserVersion = c.parserVersion) :
    v.value.contentHash = some (contentHash sha256 c.parserVersion c.provisions) ↔
      if exactText c.parserVersion then SameProvisions s v c else SameText s v c := by
  rw [hwritten.contentHash,Option.some_inj,contentHash,contentHash,hinj.eq_iff hd hc]
  by_cases hexact : exactText c.parserVersion = true
  · rw [if_pos hexact,SameProvisions,hwritten.drafts,keptDrafts_exact hexact,
      keptDrafts_exact (hparser ▸ hexact)]
    constructor
    · exact exact_drafts hparser (hparser ▸ hexact)
    · intro h
      rw [h,hparser]
  · have hlegacy := eq_false_of_ne_true hexact
    rw [if_neg hexact,SameText,hwritten.drafts,keptDrafts_legacy hlegacy,
      keptDrafts_legacy (hparser ▸ hlegacy),legacy_input hlegacy,legacy_input (hparser ▸ hlegacy)]
    exact ⟨encode_inj,congrArg encode⟩

/-- A later import is a replay if and only if its metadata and its provisions
are those that are stored; otherwise it is a conflict. Nothing is written. -/
structure Decided (call : ImportCall) (s : Corpus sha256) (i : LegalInstrument) (v : LegalVersion) :
    Prop where
  replay : (∃ r, outcome (importVersion call) s = .ok r ∧ r.replayed = true) ↔
    SameMetadata i v call.command ∧ SameProvisions s v call.command
  conflict : ¬(SameMetadata i v call.command ∧ SameProvisions s v call.command) →
    ∃ message, outcome (importVersion call) s = .error (.importConflict message)
  unchanged : commit (importVersion call) s = s

/-- The hashed bytes of the commands of a history and of one more command. -/
def hashInputs (ops : List (CorpusOp sha256)) (c : LegalImportCommand) : Set (List UInt8) :=
  (fun d : LegalImportCommand => contentHashInput d.parserVersion d.provisions) ''
    insert c (commandsOf ops)

/-- The texts agree and the provisions do not, under a parser version whose
hash cannot tell. -/
def Undetected (s : Corpus sha256) (i : LegalInstrument) (v : LegalVersion)
    (c : LegalImportCommand) : Prop :=
  exactText c.parserVersion = false ∧ SameMetadata i v c ∧ SameText s v c ∧ ¬SameProvisions s v c

theorem decided_of {call : ImportCall} {s : Corpus sha256} {i : LegalInstrument} {v : LegalVersion}
    (hvalid : validateImportCommand call.command = .ok ()) (hnames : Names s i v call.command)
    (hhash : SameMetadata i v call.command → (v.value.contentHash =
      some (contentHash sha256 call.command.parserVersion call.command.provisions) ↔
        if exactText call.command.parserVersion then SameProvisions s v call.command
        else SameText s v call.command)) :
    Decided call s i v ↔ ¬Undetected s i v call.command := by
  constructor
  · rintro hdecided ⟨hlegacy,hmetadata,htext,hprovisions⟩
    have hstored := (hhash hmetadata).mpr (by rw [hlegacy]; exact htext)
    obtain ⟨hconflict,hmatches⟩ := matches_iff.mpr ⟨hmetadata,hstored⟩
    have hrun := import_replays hvalid hnames hconflict hmatches
    have hreplay : outcome (importVersion call) s = .ok ⟨i.value.id,v.value.id,true⟩ := by
      rw [outcome,hrun]
      rfl
    exact hprovisions (hdecided.replay.mp ⟨_,hreplay,rfl⟩).2
  · intro hdetected
    have hsame : (instrumentConflict i call.command = none ∧
        versionMatches sha256 v call.command) ↔
        SameMetadata i v call.command ∧ SameProvisions s v call.command := by
      rw [matches_iff]
      refine and_congr_right fun hmetadata => (hhash hmetadata).trans ?_
      by_cases hexact : exactText call.command.parserVersion = true
      · rw [if_pos hexact]
      · rw [if_neg hexact]
        refine ⟨fun htext => ?_,sameText_of_provisions⟩
        by_contra hprovisions
        exact hdetected ⟨eq_false_of_ne_true hexact,hmetadata,htext,hprovisions⟩
    by_cases hmatch : instrumentConflict i call.command = none ∧
      versionMatches sha256 v call.command
    · have hrun := import_replays hvalid hnames hmatch.1 hmatch.2
      refine ⟨⟨fun _ => hsame.mp hmatch,fun _ => ?_⟩,fun hdiffers => ?_,commit_ok hrun⟩
      · refine ⟨⟨i.value.id,v.value.id,true⟩,?_,rfl⟩
        rw [outcome,hrun]
        rfl
      · exact absurd (hsame.mp hmatch) hdiffers
    · obtain ⟨message,hrun⟩ := import_conflicts hvalid hnames hmatch
      have herror : outcome (importVersion call) s = .error (.importConflict message) := by
        rw [outcome,hrun]
        rfl
      refine ⟨⟨?_,fun hboth => absurd (hsame.mpr hboth) hmatch⟩,fun _ => ⟨message,herror⟩,?_⟩
      · rintro ⟨r,hr,-⟩
        rw [herror] at hr
        cases hr
      · rw [commit,hrun]

theorem history_hash {ops : List (CorpusOp sha256)} {i : LegalInstrument} {v : LegalVersion}
    (hinj : Set.InjOn sha256 (hashInputs ops c))
    (hv : v ∈ (run step ops (emptyCorpus sha256)).versions) (hmetadata : SameMetadata i v c) :
    v.value.contentHash = some (contentHash sha256 c.parserVersion c.provisions) ↔
      if exactText c.parserVersion then SameProvisions (run step ops (emptyCorpus sha256)) v c
      else SameText (run step ops (emptyCorpus sha256)) v c := by
  obtain ⟨d,hd,hwritten⟩ := (recorded_history ops).versions v hv
  have hparser : d.parserVersion = c.parserVersion :=
    Option.some_inj.mp (hwritten.parserVersion.symm.trans hmetadata.parserVersion)
  apply contentHash_iff hinj _ _ hwritten hparser
  · exact Set.mem_image_of_mem _ (Set.mem_insert _ _)
  · exact ⟨d,Set.mem_insert_of_mem _ hd,rfl⟩

/-- After any history, a valid import of a stored instrument and label is a
replay exactly when it repeats what is stored, and a conflict otherwise, unless
its parser version is not an exact one and it distributes the stored text over
other provisions. -/
theorem imports_decided (sha256 : List UInt8 → Digest) (ops : List (CorpusOp sha256))
    (call : ImportCall) (i : LegalInstrument) (v : LegalVersion)
    (hinj : Set.InjOn sha256 (hashInputs ops call.command))
    (hvalid : validateImportCommand call.command = .ok ())
    (hnames : Names (run step ops (emptyCorpus sha256)) i v call.command) :
    Decided call (run step ops (emptyCorpus sha256)) i v ↔
      ¬Undetected (run step ops (emptyCorpus sha256)) i v call.command :=
  decided_of hvalid hnames (history_hash hinj hnames.version)

def sampleDraft (provisionNo text : String) : LegalProvisionDraft :=
  ⟨provisionNo,.article,[],none,text.toList⟩

theorem sampleDraft_sized {provisionNo text : String} (hno : (utf8 provisionNo).length < 256^8)
    (htext : (utf8 text).length < 256^8) : Sized (sampleDraft provisionNo text) where
  provisionNo := hno
  path := by simp [sampleDraft]
  parts := by simp [sampleDraft]
  title := by simp [sampleDraft]
  fullText := htext

def sampleCommand (first second : String) (hfirst : (utf8 first).length < 256^8)
    (hsecond : (utf8 second).length < 256^8) : LegalImportCommand where
  title := "statute"
  issuingAuthority := "authority"
  jurisdiction := "CN"
  regionCode := none
  versionLabel := "v1"
  status := .current
  publishedOn := none
  effectiveOn := none
  repealedOn := none
  lawNumber := none
  sourceRef := "statute.docx"
  datasetVersion := "dataset_v1"
  parserVersion := "docx-zip-v1"
  provisions := [sampleDraft "1" first,sampleDraft "2" second]
  category := .law
  counted := by
    rw [List.length_cons,List.length_cons,List.length_nil]
    decide
  sized := by
    intro d hd
    rcases List.mem_pair.mp hd with rfl | rfl
    · exact sampleDraft_sized (by decide) hfirst
    · exact sampleDraft_sized (by decide) hsecond

def sampleCall (n : BitVec 62) (command : LegalImportCommand) : ImportCall where
  command := command
  instrumentId := ⟨0,1,n⟩
  versionId := ⟨0,2,n⟩
  provisionId := fun k => ⟨0,3,n+BitVec.ofNat 62 k⟩

def storedCommand : LegalImportCommand :=
  sampleCommand "ab" "c" (by decide) (by decide)

def resplitCommand : LegalImportCommand :=
  sampleCommand "a" "bc" (by decide) (by decide)

/-- One to one on the texts of fewer than 32 bytes. -/
def sampleSha256 (bytes : List UInt8) : Digest :=
  BitVec.ofNat 256 (bytes.foldl (fun n b => n*256+b.toNat) 1)

def sampleHistory : List (CorpusOp sampleSha256) := [.importVersion (sampleCall 0 storedCommand)]

def sampleCorpus : Corpus sampleSha256 := run step sampleHistory (emptyCorpus sampleSha256)

theorem sample_commands : c ∈ commandsOf sampleHistory ↔ c = storedCommand := by
  constructor
  · rintro ⟨call,hcall,rfl⟩
    cases List.mem_singleton.mp hcall
    rfl
  · rintro rfl
    exact ⟨_,List.mem_singleton_self _,rfl⟩

theorem sample_injective
    (h : contentHashInput c.parserVersion c.provisions = contentHashInput
      storedCommand.parserVersion storedCommand.provisions) :
    Set.InjOn sampleSha256 (hashInputs sampleHistory c) := by
  have hsingle : ∀ bytes ∈ hashInputs sampleHistory c,
      bytes = contentHashInput storedCommand.parserVersion storedCommand.provisions := by
    rintro bytes ⟨d,rfl | hd,rfl⟩
    · exact h
    · rw [sample_commands.mp hd]
  intro a ha b hb _
  rw [hsingle a ha,hsingle b hb]

theorem sample_names (htitle : c.title = "statute") (hjurisdiction : c.jurisdiction = "CN")
    (hlabel : c.versionLabel = "v1") :
    ∃ i v, Names sampleCorpus i v c ∧ i.value = newInstrument (sampleCall 0 storedCommand) ∧
      v.value = newVersion sampleSha256 (sampleCall 0 storedCommand) i.value.id := by
  have hinstruments : sampleCorpus.instruments.rows.map Checked.value =
      [newInstrument (sampleCall 0 storedCommand)] := by decide
  have hversions : sampleCorpus.versions.rows.map Checked.value =
      [newVersion sampleSha256 (sampleCall 0 storedCommand) ⟨0,1,0⟩] := by decide
  obtain ⟨i,hi,hivalue⟩ := List.mem_map.mp (hinstruments ▸ List.mem_singleton_self _)
  obtain ⟨v,hv,hvvalue⟩ := List.mem_map.mp (hversions ▸ List.mem_singleton_self _)
  have hid : i.value.id = ⟨0,1,0⟩ := by
    rw [hivalue]
    rfl
  refine ⟨i,v,⟨hi,?_,?_,hv,?_,?_⟩,hivalue,hid ▸ hvvalue⟩
  · rw [hivalue,htitle]
    rfl
  · rw [hivalue,hjurisdiction]
    rfl
  · rw [hvvalue,hid]
    rfl
  · rw [hvvalue,hlabel]
    rfl

theorem sample_decided : ∃ i v, Names sampleCorpus i v storedCommand ∧
    (Decided (sampleCall 1 storedCommand) sampleCorpus i v ↔
      ¬Undetected sampleCorpus i v storedCommand) := by
  obtain ⟨i,v,hnames,-,-⟩ := sample_names (c := storedCommand) rfl rfl rfl
  refine ⟨i,v,hnames,?_⟩
  exact imports_decided sampleSha256 sampleHistory (sampleCall 1 storedCommand) i v
    (sample_injective rfl) (by decide) hnames

/-- The articles `ab` and `c` are stored; `a` and `bc` are taken for them. -/
theorem resplit_replayed : Set.InjOn sampleSha256 (hashInputs sampleHistory resplitCommand) ∧
    validateImportCommand resplitCommand = .ok () ∧
    ∃ i v, Names sampleCorpus i v resplitCommand ∧
      ¬Decided (sampleCall 1 resplitCommand) sampleCorpus i v := by
  have hinput : contentHashInput resplitCommand.parserVersion resplitCommand.provisions =
      contentHashInput storedCommand.parserVersion storedCommand.provisions := by decide
  have hinj := sample_injective hinput
  have hvalid : validateImportCommand resplitCommand = .ok () := by decide
  obtain ⟨i,v,hnames,hi,hv⟩ := sample_names (c := resplitCommand) rfl rfl rfl
  refine ⟨hinj,hvalid,i,v,hnames,fun hdecided => ?_⟩
  have hiff : Decided (sampleCall 1 resplitCommand) sampleCorpus i v ↔
      ¬Undetected sampleCorpus i v resplitCommand :=
    decided_of hvalid hnames (history_hash hinj hnames.version)
  have hdetected := hiff.mp hdecided
  obtain ⟨d,hd,hwritten⟩ := (recorded_history sampleHistory).versions v hnames.version
  rw [sample_commands.mp hd] at hwritten
  have hdrafts : storedDrafts sampleCorpus v.value.id = keptDrafts storedCommand := hwritten.drafts
  apply hdetected
  refine ⟨by decide,?_,?_,?_⟩
  · constructor <;> first | rw [hi]; rfl | rw [hv]; rfl
  · change joined _ = joined _
    rw [hdrafts]
    decide
  · change ¬storedDrafts _ _ = _
    rw [hdrafts]
    decide

end LawyerAgent.CorpusImportReplay
