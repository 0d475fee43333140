import LawyerAgent.IndexLeaves
import LawyerAgent.ReleasePartitions

/-!
# Navigation documents of a version

A version has one document for its instrument and one for each part or chapter
that its provisions stand under. The version, its instrument and its provisions
are hashed as lines of canonical JSON, and the digest tells two reads of the
source apart.
-/

set_option autoImplicit false

namespace LawyerAgent.NavigationDocuments
open Codes Outcomes Common Envelope CanonicalJson
open PythonText (isSpace)
open LegalVersions LegalCorpus
open LegalArticleHeading (isStructureNumeral Expression)
open IndexLeaves (idString)
open PythonRepr (digestBytes reprBytes reprDigest_delimited uuidText_inj)
open ReleaseProvenance (optionJson Determined string_determined number_determined
  option_determined array_determined object_determined checked_ext)
open JsonReader (finite finiteItems finiteFields sorted dumps_inj encode_inj dumps_visible)
open Datetimes (civilDay_civilDate civilDate_month civilDate_year field_inj)

inductive NavigationFailure where
  | valueError (message : String)
  | runtimeError (message : String)
  | portError (name : String)

inductive NavigationDocumentKind where
  | instrument
  | structure_
deriving DecidableEq

def NavigationDocumentKind.value : NavigationDocumentKind → String
  | .instrument => "instrument"
  | .structure_ => "structure"

structure NavigationDocumentFields where
  navigationId : String
  versionId : UUID7
  kind : NavigationDocumentKind
  locator : String
  content : String
  parserVersion : String
deriving DecidableEq

def navigationDocumentChecks : Checks NavigationDocumentFields := fun d =>
  [(isHex 64 d.navigationId.toList,"navigation id must be a lowercase SHA256 digest"),
   (nonempty d.locator,"navigation locator must be non-empty text"),
   (nonempty d.content,"navigation content must be non-empty text"),
   (nonempty d.parserVersion,"navigation parser_version must be non-empty text")]

abbrev NavigationDocument : Type := Checked navigationDocumentChecks

/-- A `date` lies in the years 1 to 9999. -/
def InCalendar (day : Date) : Prop := -719162 ≤ day ∧ day ≤ 2932896

def versionDates (v : LegalVersionFields) : List (Option Date) :=
  [v.publishedOn,v.effectiveOn,v.repealedOn]

structure DatedVersion where
  version : LegalVersion
  dated : ∀ day, some day ∈ versionDates version.value → InCalendar day

/-- `str` of a date -/
def dateText (day : Date) : List Char :=
  let date := civilDate day
  digits 10 4 date.1.toNat++ '-'::(digits 10 2 date.2.1.toNat++ '-'::digits 10 2 date.2.2.toNat)

def idJson (id : UUID7) : Json := .string (idString id)

def dateJson (day : Date) : Json := .string (String.ofList (dateText day))

/-- `str` of a hash -/
def bytesJson (hash : Digest) : Json := .string (String.ofList (reprBytes (digestBytes hash)))

def LegalVersionStatus.value : LegalVersionStatus → String
  | .current => "current"
  | .repealed => "repealed"
  | .statusUnknown => "status_unknown"
  | .historical => "historical"
  | .draft => "draft"

def LegalCategory.value : LegalCategory → String
  | .constitution => "constitution"
  | .law => "law"
  | .administrativeRegulation => "administrative_regulation"
  | .judicialInterpretation => "judicial_interpretation"
  | .localRegulation => "local_regulation"
  | .supervisoryRegulation => "supervisory_regulation"
  | .unknown => "unknown"

def versionJson (v : LegalVersionFields) : Json := .object
  [("id",idJson v.id),("instrument_id",idJson v.instrumentId),
   ("version_label",.string v.versionLabel),
   ("status",.string (LegalVersionStatus.value v.status)),
   ("published_on",optionJson dateJson v.publishedOn),
   ("effective_on",optionJson dateJson v.effectiveOn),
   ("repealed_on",optionJson dateJson v.repealedOn),
   ("law_number",optionJson .string v.lawNumber),
   ("content_hash",optionJson bytesJson v.contentHash),
   ("source_ref",optionJson .string v.sourceRef),
   ("dataset_version",optionJson .string v.datasetVersion),
   ("parser_version",optionJson .string v.parserVersion)]

def instrumentJson (i : LegalInstrumentFields) : Json := .object
  [("id",idJson i.id),("title",.string i.title),
   ("issuing_authority",.string i.issuingAuthority),("jurisdiction",.string i.jurisdiction),
   ("region_code",optionJson .string i.regionCode),
   ("category",.string (LegalCategory.value i.category))]

def textsJson (texts : List String) : Json := .array (texts.map .string)

def provisionJson (p : ProvisionFields) : Json := .object
  [("id",idJson p.id),("version_id",idJson p.versionId),("provision_no",.string p.provisionNo),
   ("level",.string p.level.value),("structure_path",textsJson p.structurePath),
   ("title",optionJson .string p.title),("full_text",.string (String.ofList p.fullText)),
   ("content_hash",bytesJson p.contentHash),("char_start",.number p.charStart),
   ("char_end",.number p.charEnd)]

variable {sha256 : List UInt8 → Digest}

structure Contents (sha256 : List UInt8 → Digest) where
  version : DatedVersion
  instrument : LegalInstrument
  provisions : List (Provision sha256)

def Contents.values (c : Contents sha256) (parserVersion : String) : List Json :=
  versionJson c.version.version.value::instrumentJson c.instrument.value::.string parserVersion::
    c.provisions.map fun p => provisionJson p.value

/-- `_fingerprint_value`, one value after the other -/
def fingerprintStream (values : List Json) : List UInt8 :=
  values.flatMap fun value => encode (dumps value)++[10]

def Contents.stream (c : Contents sha256) (parserVersion : String) : List UInt8 :=
  fingerprintStream (c.values parserVersion)

/-- `_STRUCTURE` -/
def structureNode : Expression :=
  .seqs [.star (.set isSpace),.char '第',.plus (.set isStructureNumeral),
    .set fun c => ['编','章'].contains c]

def isStructure (node : String) : Bool := (Regex.match? structureNode node.toList).isSome

def identityJson (versionId : UUID7) (kind : NavigationDocumentKind) (path : List String) : Json :=
  .array [idJson versionId,.string kind.value,textsJson path]

def identityBytes (versionId : UUID7) (kind : NavigationDocumentKind) (path : List String) :
    List UInt8 :=
  encode (dumps (identityJson versionId kind path))

variable (sha256) in
def documentFields (versionId : UUID7) (kind : NavigationDocumentKind) (path : List String)
    (locator content parserVersion : String) : NavigationDocumentFields :=
  ⟨hex (sha256 (identityBytes versionId kind path)),versionId,kind,locator,content,parserVersion⟩

def construct {α : Type} : Except String α → Except NavigationFailure α
  | .ok a => .ok a
  | .error message => .error (.valueError message)

variable (sha256) in
def document (versionId : UUID7) (kind : NavigationDocumentKind) (path : List String)
    (locator content parserVersion : String) : Except NavigationFailure NavigationDocument :=
  construct (postInit navigationDocumentChecks
    (documentFields sha256 versionId kind path locator content parserVersion))

/-- What the documents of one version have in common. -/
structure Heading where
  versionId : UUID7
  title : String
  parserVersion : String

/-- The prefixes met so far, and the documents. -/
structure Scan where
  seen : List (List String)
  documents : List NavigationDocument

def joinedContent (title : String) (path : List String) : String :=
  String.intercalate "\n" (title::path)

variable (sha256) in
def scanNodes (heading : Heading) (scan : Scan) (passed : List String) :
    List String → Except NavigationFailure Scan
  | [] => .ok scan
  | node::path =>
    if isStructure node = false ∨ passed++[node] ∈ scan.seen then
      scanNodes heading scan (passed++[node]) path
    else do
      let d ← document sha256 heading.versionId .structure_ (passed++[node]) node
        (joinedContent heading.title (passed++[node])) heading.parserVersion
      scanNodes heading ⟨scan.seen++[passed++[node]],scan.documents++[d]⟩ (passed++[node]) path

def scanProvision (heading : Heading) (scan : Scan) (provision : Provision sha256) :
    Except NavigationFailure Scan := do
  require (provision.value.versionId = heading.versionId)
    (.valueError "navigation provision identity mismatch")
  require (∀ node ∈ provision.value.structurePath, nonempty node = true)
    (.valueError "navigation structure path is invalid")
  scanNodes sha256 heading scan [] provision.value.structurePath

def scanProvisions (heading : Heading) (scan : Scan) :
    List (Provision sha256) → Except NavigationFailure Scan
  | [] => .ok scan
  | provision::provisions => do
    let next ← scanProvision heading scan provision
    scanProvisions heading next provisions

def Contents.heading (c : Contents sha256) (versionId : UUID7) (parserVersion : String) : Heading :=
  ⟨versionId,c.instrument.value.title,parserVersion⟩

/-- What `_version_documents` makes of a version that was found. -/
def contentDocuments (versionId : UUID7) (parserVersion : String) (c : Contents sha256) :
    Except NavigationFailure (List NavigationDocument × String) := do
  let title := c.instrument.value.title
  let first ← document sha256 versionId .instrument [title] title title parserVersion
  let scan ← scanProvisions (c.heading versionId parserVersion) ⟨[],[]⟩ c.provisions
  return (first::scan.documents,hex (sha256 (c.stream parserVersion)))

theorem dumps_line {j : Json} (hj : finite j = true) : '\n' ∉ dumps j := by
  intro h
  exact absurd (dumps_visible hj _ h) (by decide)

theorem dateText_inj {a b : Date} (ha : InCalendar a) (hb : InCalendar b)
    (h : dateText a = dateText b) : a = b := by
  have hyear := civilDate_year ha.1 ha.2
  have hyear' := civilDate_year hb.1 hb.2
  have hmonth := civilDate_month a
  have hmonth' := civilDate_month b
  dsimp only [dateText] at h
  obtain ⟨hy,h⟩ := field_inj h (by omega) (by omega) (by omega) (by omega)
  obtain ⟨hm,h⟩ := field_inj (List.cons.inj h).2 (by omega) (by omega) (by omega) (by omega)
  have hlast := congrArg (·++([] : List Char)) (List.cons.inj h).2
  obtain ⟨hd,-⟩ := field_inj hlast (by omega) (by omega) (by omega) (by omega)
  rw [← civilDay_civilDate a,hy,hm,hd,civilDay_civilDate]

theorem dateJson_option {o u : Option Date} (ho : ∀ day, o = some day → InCalendar day)
    (hu : ∀ day, u = some day → InCalendar day)
    (h : sorted (optionJson dateJson o) = sorted (optionJson dateJson u)) : o = u := by
  cases o with
  | none =>
    cases u with
    | none => rfl
    | some d => cases h
  | some c =>
    cases u with
    | none => cases h
    | some d =>
      have htext := String.ofList_inj.mp (Json.string.inj h)
      rw [dateText_inj (ho c rfl) (hu d rfl) htext]

theorem id_determined : Determined idJson := fun _ _ h =>
  uuidText_inj (String.ofList_inj.mp (Json.string.inj h))

theorem bytes_determined : Determined bytesJson := fun _ _ h =>
  delimited_inj reprDigest_delimited trivial trivial (String.ofList_inj.mp (Json.string.inj h))

theorem texts_determined : Determined textsJson := array_determined string_determined

theorem kind_value_inj {k l : NavigationDocumentKind} (h : k.value = l.value) : k = l := by
  revert h
  cases k <;> cases l <;> decide

theorem status_value_inj {s t : LegalVersionStatus}
    (h : LegalVersionStatus.value s = LegalVersionStatus.value t) : s = t := by
  revert h
  cases s <;> cases t <;> decide

theorem category_value_inj {c d : LegalCategory}
    (h : LegalCategory.value c = LegalCategory.value d) : c = d := by
  revert h
  cases c <;> cases d <;> decide

theorem instrument_determined : Determined instrumentJson := by
  have htext := option_determined string_determined fun _ h => by cases h
  intro a b h
  have hfields := object_determined (by simp only [List.map_cons,List.map_nil]) (by simp) h
  simp only [List.map_cons,List.cons.injEq] at hfields
  obtain ⟨hid,htitle,hauthority,hjurisdiction,hregion,hcategory,-⟩ := hfields
  cases a
  cases b
  rw [LegalInstrumentFields.mk.injEq]
  exact ⟨id_determined _ _ hid,string_determined _ _ htitle,string_determined _ _ hauthority,
    string_determined _ _ hjurisdiction,htext _ _ hregion,
    category_value_inj (string_determined _ _ hcategory)⟩

theorem provision_determined : Determined provisionJson := by
  have htext := option_determined string_determined fun _ h => by cases h
  intro a b h
  have hfields := object_determined (by simp only [List.map_cons,List.map_nil]) (by simp) h
  simp only [List.map_cons,List.cons.injEq] at hfields
  obtain ⟨hid,hversion,hnumber,hlevel,hpath,htitle,hfull,hhash,hstart,hend,-⟩ := hfields
  cases a
  cases b
  rw [ProvisionFields.mk.injEq]
  exact ⟨id_determined _ _ hid,id_determined _ _ hversion,string_determined _ _ hnumber,
    level_value_inj (string_determined _ _ hlevel),texts_determined _ _ hpath,htext _ _ htitle,
    String.ofList_inj.mp (string_determined _ _ hfull),bytes_determined _ _ hhash,
    Int.ofNat_inj.mp (number_determined _ _ hstart),Int.ofNat_inj.mp (number_determined _ _ hend)⟩

theorem version_determined {v w : DatedVersion}
    (h : sorted (versionJson v.version.value) = sorted (versionJson w.version.value)) : v = w := by
  have htext := option_determined string_determined fun _ h => by cases h
  have hbytes := option_determined bytes_determined fun _ h => by cases h
  obtain ⟨⟨a,hvalid⟩,ha⟩ := v
  obtain ⟨⟨b,hvalid'⟩,hb⟩ := w
  have hfields := object_determined (by simp only [List.map_cons,List.map_nil]) (by simp) h
  simp only [List.map_cons,List.cons.injEq] at hfields
  obtain ⟨hid,hinstrument,hlabel,hstatus,hpublished,heffective,hrepealed,hnumber,hhash,hsource,
    hdataset,hparser,-⟩ := hfields
  have hsame : a = b := by
    have hdates : a.publishedOn = b.publishedOn ∧ a.effectiveOn = b.effectiveOn ∧
        a.repealedOn = b.repealedOn := by
      refine ⟨dateJson_option ?_ ?_ hpublished,dateJson_option ?_ ?_ heffective,
        dateJson_option ?_ ?_ hrepealed⟩
      · exact fun day hday => ha day (by simp [versionDates,hday])
      · exact fun day hday => hb day (by simp [versionDates,hday])
      · exact fun day hday => ha day (by simp [versionDates,hday])
      · exact fun day hday => hb day (by simp [versionDates,hday])
      · exact fun day hday => ha day (by simp [versionDates,hday])
      · exact fun day hday => hb day (by simp [versionDates,hday])
    clear ha hb hvalid hvalid' h
    cases a
    cases b
    rw [LegalVersionFields.mk.injEq]
    exact ⟨id_determined _ _ hid,id_determined _ _ hinstrument,string_determined _ _ hlabel,
      status_value_inj (string_determined _ _ hstatus),hdates.1,hdates.2.1,hdates.2.2,
      htext _ _ hnumber,hbytes _ _ hhash,htext _ _ hsource,htext _ _ hdataset,htext _ _ hparser⟩
  subst hsame
  rfl

theorem optionJson_finite {α : Type} (json : α → Json) (h : ∀ a, finite (json a) = true)
    (o : Option α) : finite (optionJson json o) = true := by
  cases o with
  | none => rfl
  | some a => exact h a

theorem textsJson_finite (texts : List String) : finite (textsJson texts) = true := by
  induction texts with
  | nil => rfl
  | cons t ts ih => exact ih

theorem values_finite (c : Contents sha256) (parserVersion : String) :
    ∀ value ∈ c.values parserVersion, finite value = true := by
  have htext := optionJson_finite Json.string fun _ => rfl
  have hdate := optionJson_finite dateJson fun _ => rfl
  have hbytes := optionJson_finite bytesJson fun _ => rfl
  intro value hvalue
  rcases List.mem_cons.mp hvalue with rfl | hvalue
  · simp [versionJson,finite,finiteFields,htext,hdate,hbytes,idJson]
  rcases List.mem_cons.mp hvalue with rfl | hvalue
  · simp [instrumentJson,finite,finiteFields,htext,idJson]
  rcases List.mem_cons.mp hvalue with rfl | hvalue
  · rfl
  obtain ⟨p,-,rfl⟩ := List.mem_map.mp hvalue
  simp [provisionJson,finite,finiteFields,htext,idJson,bytesJson,textsJson_finite]

theorem fingerprintStream_encode (values : List Json) :
    fingerprintStream values = encode ((values.map dumps).flatMap (·++['\n'])) := by
  induction values with
  | nil => rfl
  | cons value values ih =>
    have hline : encode ['\n'] = [10] := by decide
    have happend : ∀ s t : List Char, encode (s++t) = encode s++encode t := fun s t =>
      List.flatMap_append
    rw [List.map_cons,List.flatMap_cons,happend,happend,hline,← ih]
    rfl

theorem fingerprintStream_lines {values others : List Json}
    (hvalues : ∀ value ∈ values, finite value = true)
    (hothers : ∀ value ∈ others, finite value = true)
    (h : fingerprintStream values = fingerprintStream others) :
    values.map dumps = others.map dumps := by
  have hlines : Delimited (fun line : List Char => '\n' ∉ line) fun line => line++['\n'] :=
    delimited_until (fun _ hline => hline) fun _ _ _ _ hsame => hsame
  rw [fingerprintStream_encode,fingerprintStream_encode] at h
  apply delimited_words hlines (fun line _ => by simp) _ _ (encode_inj h)
  · intro line hline
    obtain ⟨value,hvalue,rfl⟩ := List.mem_map.mp hline
    exact dumps_line (hvalues value hvalue)
  · intro line hline
    obtain ⟨value,hvalue,rfl⟩ := List.mem_map.mp hline
    exact dumps_line (hothers value hvalue)

theorem provisions_determined {ps qs : List (Provision sha256)}
    (h : (ps.map fun p => provisionJson p.value).map dumps =
      (qs.map fun q => provisionJson q.value).map dumps) : ps = qs := by
  rw [List.map_map,List.map_map] at h
  apply List.map_injective_iff.mpr _ h
  intro p q hline
  have hfinite : ∀ p : Provision sha256, finite (provisionJson p.value) = true := by
    intro p
    have htext := optionJson_finite Json.string fun _ => rfl
    simp [provisionJson,finite,finiteFields,htext,idJson,bytesJson,textsJson_finite]
  exact checked_ext (provision_determined _ _ (dumps_inj (hfinite p) (hfinite q) hline))

theorem stream_inj {c d : Contents sha256} {parserVersion : String}
    (h : c.stream parserVersion = d.stream parserVersion) : c = d := by
  have hc := values_finite c parserVersion
  have hd := values_finite d parserVersion
  have hlines := fingerprintStream_lines hc hd h
  obtain ⟨hversion,hlines⟩ := List.cons.inj hlines
  obtain ⟨hinstrument,hlines⟩ := List.cons.inj hlines
  obtain ⟨-,hprovisions⟩ := List.cons.inj hlines
  have hv := version_determined (dumps_inj (hc _ (by simp [Contents.values]))
    (hd _ (by simp [Contents.values])) hversion)
  have hi := checked_ext (instrument_determined _ _ (dumps_inj (hc _ (by simp [Contents.values]))
    (hd _ (by simp [Contents.values])) hinstrument))
  have hp := provisions_determined hprovisions
  cases c
  cases d
  rw [Contents.mk.injEq]
  exact ⟨hv,hi,hp⟩

/-- A prefix of a path whose last node opens a part or a chapter. -/
def Structural (path nodes : List String) : Prop :=
  nodes <+: path ∧ nodes.getLast?.any isStructure = true

variable (sha256) in
def structureFields (heading : Heading) (nodes : List String) : NavigationDocumentFields :=
  documentFields sha256 heading.versionId .structure_ nodes (nodes.getLast?.getD "")
    (joinedContent heading.title nodes) heading.parserVersion

variable (sha256) in
def instrumentFields (heading : Heading) : NavigationDocumentFields :=
  documentFields sha256 heading.versionId .instrument [heading.title] heading.title heading.title
    heading.parserVersion

/-- The prefixes of `passed++path` that are longer than `passed`. -/
def Beyond (passed path nodes : List String) : Prop :=
  ∃ more, more ≠ [] ∧ more <+: path ∧ nodes = passed++more

theorem beyond_nil (passed nodes : List String) : ¬ Beyond passed [] nodes := by
  rintro ⟨more,hne,hmore,-⟩
  exact hne (List.prefix_nil.mp hmore)

theorem beyond_cons {passed path nodes : List String} {node : String} :
    Beyond passed (node::path) nodes ↔
      nodes = passed++[node] ∨ Beyond (passed++[node]) path nodes := by
  constructor
  · rintro ⟨more,hne,hmore,rfl⟩
    cases more with
    | nil => exact absurd rfl hne
    | cons m ms =>
      obtain ⟨rfl,hms⟩ := List.cons_prefix_cons.mp hmore
      by_cases hlast : ms = []
      · exact .inl (by rw [hlast])
      · exact .inr ⟨ms,hlast,hms,by simp⟩
  · intro h
    rcases h with rfl | ⟨more,-,hmore,rfl⟩
    · exact ⟨[node],List.cons_ne_nil _ _,List.cons_prefix_cons.mpr ⟨rfl,List.nil_prefix⟩,rfl⟩
    · exact ⟨node::more,List.cons_ne_nil _ _,List.cons_prefix_cons.mpr ⟨rfl,hmore⟩,by simp⟩

theorem structural_beyond {path nodes : List String} :
    Structural path nodes ↔ Beyond [] path nodes ∧ nodes.getLast?.any isStructure = true := by
  constructor
  · intro h
    have hne : nodes ≠ [] := by
      intro hnil
      have hlast := h.2
      rw [hnil] at hlast
      exact Bool.false_ne_true hlast
    exact ⟨⟨nodes,hne,h.1,rfl⟩,h.2⟩
  · rintro ⟨⟨more,-,hmore,rfl⟩,hlast⟩
    exact ⟨hmore,hlast⟩

theorem last_structure (passed : List String) (node : String) :
    (passed++[node]).getLast?.any isStructure = isStructure node := by
  rw [List.getLast?_concat]
  rfl

variable (sha256) in
/-- The documents are those of the prefixes met, each met once. -/
structure Scan.Sound (heading : Heading) (scan : Scan) : Prop where
  once : scan.seen.Nodup
  documents : scan.documents.map Checked.value = scan.seen.map (structureFields sha256 heading)

theorem construct_ok {α : Type} {x : Except String α} {a : α} :
    construct x = .ok a ↔ x = .ok a := by
  cases x with
  | ok b => simp [construct]
  | error _ => simp [construct]

theorem document_ok {versionId : UUID7} {kind : NavigationDocumentKind} {path : List String}
    {locator content parserVersion : String} {d : NavigationDocument}
    (h : document sha256 versionId kind path locator content parserVersion = .ok d) :
    d.value = documentFields sha256 versionId kind path locator content parserVersion :=
  postInit_ok (construct_ok.mp h)

theorem scanNodes_ok {heading : Heading} {scan next : Scan} {passed path : List String}
    (hsound : scan.Sound sha256 heading)
    (h : scanNodes sha256 heading scan passed path = .ok next) :
    next.Sound sha256 heading ∧ ∀ nodes, nodes ∈ next.seen ↔
      nodes ∈ scan.seen ∨ Beyond passed path nodes ∧ nodes.getLast?.any isStructure = true := by
  induction path generalizing scan passed with
  | nil =>
    cases h
    exact ⟨hsound,fun nodes => by simp [beyond_nil]⟩
  | cons node path ih =>
    rw [scanNodes] at h
    by_cases hskip : isStructure node = false ∨ passed++[node] ∈ scan.seen
    · rw [if_pos hskip] at h
      obtain ⟨hnext,hseen⟩ := ih hsound h
      refine ⟨hnext,fun nodes => ?_⟩
      rw [hseen,beyond_cons]
      constructor
      · rintro (hmem | ⟨hbeyond,hlast⟩)
        · exact .inl hmem
        · exact .inr ⟨.inr hbeyond,hlast⟩
      · rintro (hmem | ⟨rfl | hbeyond,hlast⟩)
        · exact .inl hmem
        · rw [last_structure] at hlast
          rcases hskip with hplain | hmem
          · exact absurd (hlast.symm.trans hplain) (by decide)
          · exact .inl hmem
        · exact .inr ⟨hbeyond,hlast⟩
    · rw [if_neg hskip] at h
      obtain ⟨hplain,hnew⟩ := not_or.mp hskip
      have hstructure : isStructure node = true := Bool.eq_true_of_not_eq_false hplain
      obtain ⟨d,hd,h⟩ := bind_ok.mp h
      have hgrown : Scan.Sound sha256 heading
          ⟨scan.seen++[passed++[node]],scan.documents++[d]⟩ := by
        constructor
        · exact List.nodup_append.mpr ⟨hsound.once,List.nodup_singleton _,by
            rintro a ha b hb rfl
            exact hnew (List.mem_singleton.mp hb ▸ ha)⟩
        · rw [List.map_append,List.map_append,hsound.documents,List.map_singleton,
            List.map_singleton,document_ok hd,structureFields,List.getLast?_concat]
          rfl
      obtain ⟨hnext,hseen⟩ := ih hgrown h
      refine ⟨hnext,fun nodes => ?_⟩
      rw [hseen,beyond_cons,List.mem_append,List.mem_singleton]
      constructor
      · rintro ((hmem | rfl) | ⟨hbeyond,hlast⟩)
        · exact .inl hmem
        · exact .inr ⟨.inl rfl,(last_structure passed node).trans hstructure⟩
        · exact .inr ⟨.inr hbeyond,hlast⟩
      · rintro (hmem | ⟨rfl | hbeyond,hlast⟩)
        · exact .inl (.inl hmem)
        · exact .inl (.inr rfl)
        · exact .inr ⟨hbeyond,hlast⟩

theorem scanProvision_ok {heading : Heading} {scan next : Scan} {provision : Provision sha256}
    (hsound : scan.Sound sha256 heading) (h : scanProvision heading scan provision = .ok next) :
    next.Sound sha256 heading ∧ ∀ nodes, nodes ∈ next.seen ↔
      nodes ∈ scan.seen ∨ Structural provision.value.structurePath nodes := by
  obtain ⟨_,-,h⟩ := bind_ok.mp h
  obtain ⟨_,-,h⟩ := bind_ok.mp h
  obtain ⟨hnext,hseen⟩ := scanNodes_ok hsound h
  exact ⟨hnext,fun nodes => by rw [hseen,structural_beyond]⟩

theorem scanProvisions_ok {heading : Heading} {scan next : Scan}
    {provisions : List (Provision sha256)} (hsound : scan.Sound sha256 heading)
    (h : scanProvisions heading scan provisions = .ok next) :
    next.Sound sha256 heading ∧ ∀ nodes, nodes ∈ next.seen ↔
      nodes ∈ scan.seen ∨ ∃ p ∈ provisions, Structural p.value.structurePath nodes := by
  induction provisions generalizing scan with
  | nil =>
    cases h
    exact ⟨hsound,fun nodes => by simp⟩
  | cons p ps ih =>
    obtain ⟨middle,hmiddle,h⟩ := bind_ok.mp h
    obtain ⟨hsound',hseen⟩ := scanProvision_ok hsound hmiddle
    obtain ⟨hnext,hrest⟩ := ih hsound' h
    refine ⟨hnext,fun nodes => ?_⟩
    rw [hrest,hseen,or_assoc]
    simp

/-- The instrument's document and one for each structural prefix of the provisions. -/
structure Navigates (c : Contents sha256) (heading : Heading)
    (documents : List NavigationDocument) (prefixes : List (List String)) : Prop where
  once : prefixes.Nodup
  exact_ : ∀ nodes, nodes ∈ prefixes ↔ ∃ p ∈ c.provisions, Structural p.value.structurePath nodes
  documents : documents.map Checked.value =
    instrumentFields sha256 heading::prefixes.map (structureFields sha256 heading)

theorem contentDocuments_ok {versionId : UUID7} {parserVersion digest : String}
    {c : Contents sha256} {documents : List NavigationDocument}
    (h : contentDocuments versionId parserVersion c = .ok (documents,digest)) :
    digest = hex (sha256 (c.stream parserVersion)) ∧
      ∃ prefixes, Navigates c (c.heading versionId parserVersion) documents prefixes := by
  obtain ⟨first,hfirst,h⟩ := bind_ok.mp h
  obtain ⟨scan,hscan,h⟩ := bind_ok.mp h
  obtain ⟨hdocuments,hdigest⟩ := Prod.mk.inj (Except.ok.inj h)
  have hstart : Scan.Sound sha256 (c.heading versionId parserVersion) ⟨[],[]⟩ :=
    ⟨List.nodup_nil,rfl⟩
  obtain ⟨hsound,hseen⟩ := scanProvisions_ok hstart hscan
  refine ⟨hdigest.symm,scan.seen,hsound.once,fun nodes => ?_,?_⟩
  · rw [hseen]
    simp
  · rw [← hdocuments,List.map_cons,hsound.documents,document_ok hfirst]
    rfl

theorem identityBytes_inj {v w : UUID7} {k l : NavigationDocumentKind} {p q : List String}
    (h : identityBytes v k p = identityBytes w l q) : v = w ∧ k = l ∧ p = q := by
  have hfinite : ∀ (u : UUID7) (m : NavigationDocumentKind) (path : List String),
      finite (identityJson u m path) = true := by
    intro u m path
    simp [identityJson,finite,finiteItems,idJson,textsJson_finite]
  have hsorted := dumps_inj (hfinite v k p) (hfinite w l q) (encode_inj h)
  have hitems := Json.array.inj hsorted
  obtain ⟨hid,hitems⟩ := List.cons.inj hitems
  obtain ⟨hkind,hitems⟩ := List.cons.inj hitems
  obtain ⟨hpath,-⟩ := List.cons.inj hitems
  exact ⟨id_determined _ _ hid,kind_value_inj (string_determined _ _ hkind),
    texts_determined _ _ hpath⟩

end LawyerAgent.NavigationDocuments
