import LawyerAgent.LegalVersions

/-!
# Evidence bundle and citation gate

A cited evidence item carries the dates and the status of the version its
provision belongs to. The gate refuses an item that is not in the bundle, not
authorized, or not known to be in force at the target date.
-/

set_option autoImplicit false

namespace LawyerAgent.CitationGate
open Common LegalVersions

structure EvidenceItemFields where
  evidenceId : UUID7
  instrumentTitle : String
  versionId : UUID7
  versionLabel : String
  status : LegalVersionStatus
  publishedOn : Option Date
  effectiveOn : Option Date
  repealedOn : Option Date
  provisionNo : String
  provisionText : String
  sourceRef : String
  datasetVersion : String
  authorized : Bool
deriving DecidableEq

def evidenceItemChecks : Checks EvidenceItemFields := fun e =>
  [(e.instrumentTitle ≠ "","evidence instrument title must be non-empty"),
   (e.provisionNo ≠ "","evidence provision number must be non-empty"),
   (e.provisionText ≠ "","evidence provision text must be non-empty")]

abbrev EvidenceItem : Type := Checked evidenceItemChecks

structure Citation where
  claimIndex : ℕ
  evidenceId : UUID7
deriving DecidableEq

structure CitationVerdict where
  allowed : Bool
  reason : String
  claimIndex : Option ℕ := none
  evidenceId : Option UUID7 := none
deriving DecidableEq

def evidenceIds (items : List EvidenceItem) : List UUID7 := items.map (·.value.evidenceId)

structure EvidenceBundle where
  items : List EvidenceItem
  filled : items ≠ []
  distinct : (evidenceIds items).Nodup

def evidenceBundle (items : List EvidenceItem) : Except String EvidenceBundle :=
  if filled : items = [] then .error "an evidence bundle must not be empty"
  else if distinct : (evidenceIds items).Nodup then .ok ⟨items,filled,distinct⟩
  else .error "evidence ids must be unique within a bundle"

def EvidenceBundle.find (bundle : EvidenceBundle) (evidenceId : UUID7) : Option EvidenceItem :=
  bundle.items.find? fun e => e.value.evidenceId = evidenceId

structure Provision where
  id : UUID7
  provisionNo : String
  fullText : String

inductive EvidenceAssemblyError where
  | sourceMissing (versionId : UUID7) (field : String)
  | invalid (message : String)

/-- `not value` on an optional text. -/
def missing (value : Option String) : Bool := value.all (· = "")

/-- One item of `LegalEvidenceAssemblyService.assemble`. -/
def assembleItem (version : LegalVersion) (instrumentTitle : String) (provision : Provision)
    (authorized : Bool) : Except EvidenceAssemblyError EvidenceItem :=
  if missing version.value.sourceRef then
    .error (.sourceMissing version.value.id "source_ref")
  else if missing version.value.datasetVersion then
    .error (.sourceMissing version.value.id "dataset_version")
  else
    match postInit evidenceItemChecks
      { evidenceId := provision.id
        instrumentTitle := instrumentTitle
        versionId := version.value.id
        versionLabel := version.value.versionLabel
        status := version.value.status
        publishedOn := version.value.publishedOn
        effectiveOn := version.value.effectiveOn
        repealedOn := version.value.repealedOn
        provisionNo := provision.provisionNo
        provisionText := provision.fullText
        sourceRef := version.value.sourceRef.getD ""
        datasetVersion := version.value.datasetVersion.getD ""
        authorized := authorized } with
    | .ok item => .ok item
    | .error message => .error (.invalid message)

def EvidenceOf (item : EvidenceItem) (version : LegalVersion) : Prop :=
  ∃ title provision authorized, assembleItem version title provision authorized = .ok item

theorem evidenceOf_metadata {item : EvidenceItem} {version : LegalVersion}
    (h : EvidenceOf item version) :
    item.value.status = version.value.status ∧
    item.value.publishedOn = version.value.publishedOn ∧
    item.value.effectiveOn = version.value.effectiveOn ∧
    item.value.repealedOn = version.value.repealedOn := by
  obtain ⟨title,provision,authorized,h⟩ := h
  unfold assembleItem at h
  split at h
  · cases h
  · split at h
    · cases h
    · split at h
      · rename_i made hmade
        cases h
        rw [postInit_ok hmade]
        exact ⟨rfl,rfl,rfl,rfl⟩
      · cases h

def ended (status : LegalVersionStatus) : Bool :=
  decide (status ∈ [LegalVersionStatus.repealed,LegalVersionStatus.historical])

/-- The conditions in source order, each with the reason of its refusal. -/
def gateChecks (item : EvidenceItemFields) (targetDate : Date) : List (Bool × String) :=
  [(item.authorized,"evidence_not_authorized"),
   (item.status ≠ .statusUnknown,"effective_status_unknown"),
   (item.status ≠ .draft,"draft_not_effective"),
   (item.publishedOn.isSome,"published_date_unknown"),
   (item.effectiveOn.isSome,"effective_date_unknown"),
   (!ended item.status || item.repealedOn.isSome,"end_date_unknown"),
   (item.effectiveOn.all fun e => item.repealedOn.all (e ≤ ·),"effective_date_conflict"),
   (item.effectiveOn.all (· ≤ targetDate),"not_effective_on_target_date"),
   (item.repealedOn.all (targetDate ≤ ·),"repealed_on_target_date")]

def verifyOne (bundle : EvidenceBundle) (citation : Citation) (targetDate : Date) :
    CitationVerdict :=
  let verdict (allowed : Bool) (reason : String) : CitationVerdict :=
    ⟨allowed,reason,some citation.claimIndex,some citation.evidenceId⟩
  match bundle.find citation.evidenceId with
  | none => verdict false "evidence_not_in_bundle"
  | some item =>
    match firstError (gateChecks item.value targetDate) with
    | some reason => verdict false reason
    | none => verdict true "allowed"

def verify (bundle : EvidenceBundle) (citations : List Citation) (targetDate : Date) :
    List CitationVerdict :=
  citations.map fun citation => verifyOne bundle citation targetDate

theorem verifyOne_allowed_iff {bundle : EvidenceBundle} {citation : Citation} {d : Date}
    {item : EvidenceItem} (hitem : bundle.find citation.evidenceId = some item) :
    (verifyOne bundle citation d).allowed = true ↔
      ∀ c ∈ gateChecks item.value d, c.1 = true := by
  simp only [verifyOne,hitem]
  cases hf : firstError (gateChecks item.value d) with
  | none => exact iff_of_true rfl fun c hc => firstError_none hf hc
  | some reason =>
    simp only [Bool.false_eq_true,false_iff]
    intro hall
    rw [firstError_all hall] at hf
    cases hf

/-- What the gate asks of the version behind a citation besides its effective
date: a known status that is no draft, a publication date, an end date where
the status says the version has ended, and no end before the target date. -/
structure Presentable (v : LegalVersion) (targetDate : Date) : Prop where
  known : v.value.status ≠ .statusUnknown
  adopted : v.value.status ≠ .draft
  published : v.value.publishedOn ≠ none
  dated : ended v.value.status = true → v.value.repealedOn ≠ none
  standing : ∀ r, v.value.repealedOn = some r → targetDate ≤ r

section Evidence

variable {bundle : EvidenceBundle} {citation : Citation} {d : Date} {item : EvidenceItem}
  {v : LegalVersion}

theorem verifyOne_effective (hitem : bundle.find citation.evidenceId = some item)
    (hv : EvidenceOf item v) (h : (verifyOne bundle citation d).allowed = true) :
    ∃ e, v.value.effectiveOn = some e ∧ e ≤ d := by
  obtain ⟨-,-,heffective,-⟩ := evidenceOf_metadata hv
  have hall := (verifyOne_allowed_iff hitem).mp h
  rw [← heffective]
  simp only [gateChecks,List.forall_mem_cons,Option.isSome_iff_exists,Option.all_eq_true,
    decide_eq_true_eq] at hall
  obtain ⟨-,-,-,-,⟨e,he⟩,-,-,hle,-⟩ := hall
  exact ⟨e,he,hle e he⟩

theorem verifyOne_allowed (hitem : bundle.find citation.evidenceId = some item)
    (hv : EvidenceOf item v) (hauthorized : item.value.authorized = true)
    (heffective : ∃ e, v.value.effectiveOn = some e ∧ e ≤ d) :
    (verifyOne bundle citation d).allowed = true ↔ Presentable v d := by
  obtain ⟨hstatus,hpublished,heff,hrepealed⟩ := evidenceOf_metadata hv
  obtain ⟨e,he,hd⟩ := heffective
  rw [verifyOne_allowed_iff hitem]
  simp only [gateChecks,List.forall_mem_cons,hstatus,hpublished,heff,hrepealed,hauthorized,he]
  constructor
  · intro hall
    obtain ⟨-,hknown,hadopted,hpub,-,hdated,-,-,hstanding,-⟩ := hall
    refine ⟨by simpa using hknown,by simpa using hadopted,?_,?_,?_⟩
    · simpa [Option.isSome_iff_ne_none] using hpub
    · simpa [Option.isSome_iff_ne_none,← Bool.not_eq_true,imp_iff_not_or] using hdated
    · simpa [Option.all_eq_true] using hstanding
  · intro hp
    have hconflict : ∀ r, v.value.repealedOn = some r → e ≤ r := fun r hr =>
      hd.trans (hp.standing r hr)
    have hdated := hp.dated
    refine ⟨trivial,?_,?_,?_,rfl,?_,?_,?_,?_,by simp⟩
    · simpa using hp.known
    · simpa using hp.adopted
    · simpa [Option.isSome_iff_ne_none] using hp.published
    · simpa [Option.isSome_iff_ne_none,← Bool.not_eq_true,imp_iff_not_or] using hdated
    · simpa [Option.all_eq_true] using hconflict
    · simpa using hd
    · simpa [Option.all_eq_true] using hp.standing

end Evidence

end LawyerAgent.CitationGate

namespace LawyerAgent.PointInTime
open Relational Common LegalVersions CitationGate

/-- The gate allows a citation of evidence restored from the version. -/
def AllowedAt (v : LegalVersion) (d : Date) : Prop :=
  ∃ (bundle : EvidenceBundle) (citation : Citation) (item : EvidenceItem),
    bundle.find citation.evidenceId = some item ∧ EvidenceOf item v ∧
    (verifyOne bundle citation d).allowed = true

/-- The gate allows every citation of authorized evidence restored from the
version. -/
def Citable (v : LegalVersion) (d : Date) : Prop :=
  ∀ (bundle : EvidenceBundle) (citation : Citation) (item : EvidenceItem),
    bundle.find citation.evidenceId = some item → EvidenceOf item v →
    item.value.authorized = true → (verifyOne bundle citation d).allowed = true

theorem allowed_effective {t : Table legalVersions} {i : UUID7} {d : Date} {w : LegalVersion}
    (hw : w ∈ t) (hi : w.value.instrumentId = i) (h : AllowedAt w d) :
    w ∈ effectiveVersions t i d := by
  obtain ⟨bundle,citation,item,hitem,hv,hallowed⟩ := h
  exact mem_effectiveVersions.mpr ⟨hw,hi,verifyOne_effective hitem hv hallowed⟩

/-- The version of a date is the one that came into effect last. The gate
allows evidence of it exactly when it is presentable, and where the gate allows
any version of the instrument the lookup returns one that is no older. -/
theorem version_of_date (t : Table legalVersions) (i : UUID7) (d : Date) :
    (∀ v, versionAt t i d = some v → Latest t i d v ∧
      (Presentable v d → Citable v d) ∧ (AllowedAt v d → Presentable v d)) ∧
    ∀ w ∈ t, w.value.instrumentId = i → AllowedAt w d →
      ∃ v, versionAt t i d = some v ∧ effectiveKey w ≤ effectiveKey v := by
  constructor
  · intro v hv
    have hlatest := versionAt_latest hv
    refine ⟨hlatest,?_,?_⟩
    · intro hp bundle citation item hitem hevidence hauthorized
      exact (verifyOne_allowed hitem hevidence hauthorized hlatest.effective).mpr hp
    · rintro ⟨bundle,citation,item,hitem,hevidence,hallowed⟩
      have hauthorized : item.value.authorized = true :=
        (verifyOne_allowed_iff hitem).mp hallowed _ List.mem_cons_self
      exact (verifyOne_allowed hitem hevidence hauthorized hlatest.effective).mp hallowed
  · intro w hw hi hallowed
    have hmem := allowed_effective hw hi hallowed
    obtain ⟨v,hv⟩ := versionAt_some hmem
    exact ⟨v,hv,(versionAt_latest hv).latest w hmem⟩

def sampleId (n : BitVec 62) : UUID7 := ⟨0,0,n⟩

def sampleVersion (n : BitVec 62) (label : String) (status : LegalVersionStatus)
    (publishedOn effectiveOn : Date) : LegalVersionFields where
  id := sampleId n
  instrumentId := sampleId 0
  versionLabel := label
  status := status
  publishedOn := some publishedOn
  effectiveOn := some effectiveOn
  repealedOn := none
  sourceRef := some "object://corpus/sample.docx"
  datasetVersion := some "dataset_v1"

def adoptedVersion : LegalVersion :=
  ⟨sampleVersion 1 "2020" .current 18262 18322,by decide⟩

def draftVersion : LegalVersion :=
  ⟨sampleVersion 2 "2024" .draft 19723 19844,by decide⟩

def sampleVersions : Table legalVersions := ⟨[adoptedVersion,draftVersion],by decide⟩

def sampleProvision : Provision := ⟨sampleId 9,"第一条","第一条 内容。"⟩

def adoptedItem : EvidenceItem where
  value :=
    { evidenceId := sampleId 9
      instrumentTitle := "示范法"
      versionId := sampleId 1
      versionLabel := "2020"
      status := .current
      publishedOn := some 18262
      effectiveOn := some 18322
      repealedOn := none
      provisionNo := "第一条"
      provisionText := "第一条 内容。"
      sourceRef := "object://corpus/sample.docx"
      datasetVersion := "dataset_v1"
      authorized := true }
  valid := by decide

def adoptedBundle : EvidenceBundle := ⟨[adoptedItem],by simp,by decide⟩

/-- On 2025-06-01 the lookup returns the draft, which the gate refuses, though
it allows the version of 2020. -/
theorem draft_hides_adopted :
    versionAt sampleVersions (sampleId 0) 20240 = some draftVersion ∧
    ¬AllowedAt draftVersion 20240 ∧ AllowedAt adoptedVersion 20240 := by
  refine ⟨rfl,?_,?_⟩
  · rintro ⟨bundle,citation,item,hitem,hevidence,hallowed⟩
    obtain ⟨hstatus,-⟩ := evidenceOf_metadata hevidence
    have hadopted := (verifyOne_allowed_iff hitem).mp hallowed
      (item.value.status ≠ .draft,"draft_not_effective") (by simp [gateChecks])
    rw [hstatus] at hadopted
    exact absurd hadopted (by decide)
  · refine ⟨adoptedBundle,⟨0,sampleId 9⟩,adoptedItem,rfl,?_,by decide⟩
    exact ⟨"示范法",sampleProvision,true,rfl⟩

end LawyerAgent.PointInTime
