import LawyerAgent.Outcomes.Except
import LawyerAgent.Packing.Greedy
import LawyerAgent.PythonJson

/-!
# Bulk requests of bounded size

A batch of documents is checked as a whole first. Its payloads are then built
one after the other while they are consumed, each document being serialized a
second time.
-/

set_option autoImplicit false

namespace LawyerAgent.BoundedBulk
open Outcomes Packing PythonJson

def maxBulkBytes : ℕ := 8*1024*1024

def maxBulkDocuments : ℕ := 256

structure BulkPayload where
  content : List UInt8
  documentIds : List PyText

def documentLines (indexName : PyText) (document : Value) (identifier : PyText) :
    Option (List UInt8) := do
  let action ← dumps (.dict [(.str (plainText "index".toList),.dict
    [(.str (plainText "_index".toList),.str indexName),
      (.str (plainText "_id".toList),.str identifier)])])
  let source ← dumps document
  utf8 (action++[.scalar '\n']++source++[.scalar '\n'])

def documentBytes (indexName : PyText) (document : Value) (identifier : PyText) :
    Except String (List UInt8) :=
  match documentLines indexName document identifier with
  | none => .error "bulk document is not valid JSON"
  | some encoded =>
    if maxBulkBytes < encoded.length then .error "bulk document exceeds the request size limit"
    else .ok encoded

def asDict : Value → Except String (List (Value × Value))
  | .dict items => .ok items
  | _ => .error "bulk document is invalid"

def identifierOf (idField : PyText) (seen : List PyText) (items : List (Value × Value)) :
    Except String PyText :=
  match get items idField with
  | .str identifier =>
    if identifier = [] ∨ identifier ∈ seen then
      .error "bulk document ids must be nonempty and unique"
    else .ok identifier
  | _ => .error "bulk document ids must be nonempty and unique"

def checkDocument (indexName idField : PyText) (seen : List PyText) (document : Value) :
    Except String PyText := do
  let items ← asDict document
  let identifier ← identifierOf idField seen items
  let _ ← documentBytes indexName document identifier
  return identifier

def checkDocuments (indexName idField : PyText) :
    List PyText → List Value → Except String (List PyText)
  | _, [] => .ok []
  | seen, document::documents => do
    let identifier ← checkDocument indexName idField seen document
    let identifiers ← checkDocuments indexName idField (identifier::seen) documents
    return identifier::identifiers

/-- What a consumer of the iterator gets, and the error that ends it. -/
structure Consumed where
  payloads : List BulkPayload
  raised : Option String

def Consumed.after (payload : BulkPayload) (c : Consumed) : Consumed :=
  { c with payloads := payload::c.payloads }

def payloadsFrom (indexName : PyText) :
    List UInt8 → List PyText → List Value → List PyText → Consumed
  | current, currentIds, [], [] => ⟨if current = [] then [] else [⟨current,currentIds⟩],none⟩
  | current, currentIds, document::documents, identifier::identifiers =>
    match documentBytes indexName document identifier with
    | .error message => ⟨[],some message⟩
    | .ok encoded =>
      if current ≠ [] ∧ maxBulkBytes < current.length+encoded.length then
        (payloadsFrom indexName encoded [identifier] documents identifiers).after
          ⟨current,currentIds⟩
      else
        payloadsFrom indexName (current++encoded) (currentIds++[identifier]) documents identifiers
  | _, _, _, _ => ⟨[],some "zip() arguments have different lengths"⟩

def payloads (indexName : PyText) (documents : List Value) (identifiers : List PyText) : Consumed :=
  payloadsFrom indexName [] [] documents identifiers

def boundedBulkPayloads (indexName documents idField : Value) : Except String Consumed :=
  match documents, indexName, idField with
  | .tuple documents, .str indexName, .str idField =>
    if maxBulkDocuments < documents.length ∨ indexName = [] ∨ idField = [] then
      .error "bulk batch is invalid"
    else do
      let identifiers ← checkDocuments indexName idField [] documents
      return payloads indexName documents identifiers
  | _, _, _ => .error "bulk batch is invalid"

def idOf (idField : PyText) : Value → Option PyText
  | .dict items =>
    match get items idField with
    | .str identifier => some identifier
    | _ => none
  | _ => none

def encoding (indexName idField : PyText) (document : Value) : Option (List UInt8) :=
  (idOf idField document).bind (documentLines indexName document)

structure Entry where
  document : Value
  identifier : PyText
  encoded : List UInt8

structure Entry.Sound (indexName idField : PyText) (e : Entry) : Prop where
  named : idOf idField e.document = some e.identifier
  lines : documentLines indexName e.document e.identifier = some e.encoded
  bounded : e.encoded.length ≤ maxBulkBytes

variable {indexName idField : PyText}

variable {document : Value} {identifier : PyText}

theorem documentBytes_ok {encoded : List UInt8} :
    documentBytes indexName document identifier = .ok encoded ↔
      documentLines indexName document identifier = some encoded ∧
        encoded.length ≤ maxBulkBytes := by
  rw [documentBytes]
  cases hlines : documentLines indexName document identifier with
  | none => simp
  | some bytes =>
    dsimp only
    by_cases hlarge : maxBulkBytes < bytes.length
    · rw [if_pos hlarge]
      simp only [reduceCtorEq,Option.some.injEq,false_iff,not_and,not_le]
      rintro rfl
      exact hlarge
    · rw [if_neg hlarge,Except.ok.injEq,Option.some.injEq]
      constructor
      · rintro rfl
        exact ⟨rfl,not_lt.mp hlarge⟩
      · exact fun h => h.1

theorem utf8_nonempty {text : PyText} {bytes : List UInt8} (hne : text ≠ [])
    (h : utf8 text = some bytes) : bytes ≠ [] := by
  rw [utf8,Option.map_eq_some_iff] at h
  obtain ⟨chars,hchars,rfl⟩ := h
  have hlength := CanonicalJson.encode_length chars
  have hsame : chars.length = text.length := by
    exact (mapM_some.mp hchars).length_eq.symm
  have hpos := List.length_pos_of_ne_nil hne
  apply List.ne_nil_of_length_pos
  omega

theorem documentLines_nonempty {encoded : List UInt8}
    (h : documentLines indexName document identifier = some encoded) : encoded ≠ [] := by
  simp only [documentLines,Option.bind_eq_bind,Option.bind_eq_some_iff] at h
  obtain ⟨action,-,source,-,hbytes⟩ := h
  exact utf8_nonempty (by simp) hbytes

theorem checkDocument_ok {seen : List PyText}
    (h : checkDocument indexName idField seen document = .ok identifier) :
    ∃ encoded, Entry.Sound indexName idField ⟨document,identifier,encoded⟩ := by
  simp only [checkDocument,bind_ok] at h
  obtain ⟨items,hitems,name,hname,encoded,hencoded,hsame⟩ := h
  obtain ⟨hlines,hbounded⟩ := documentBytes_ok.mp hencoded
  have hidentifier : name = identifier := ok_inj.mp hsame
  rw [hidentifier] at hname hlines
  refine ⟨encoded,?_,hlines,hbounded⟩
  cases document with
  | dict fields =>
    have hfields : fields = items := ok_inj.mp hitems
    rw [identifierOf] at hname
    rw [idOf,hfields]
    cases hget : get items idField with
    | str text =>
      rw [hget] at hname
      dsimp only at hname
      split at hname
      · cases hname
      · exact congrArg some (ok_inj.mp hname)
    | none | bool | int | float | list | tuple | dict | other =>
      rw [hget] at hname
      cases hname
  | none | bool | int | float | str | list | tuple | other => cases hitems

theorem checkDocuments_ok {seen : List PyText} {documents : List Value} {ids : List PyText}
    (h : checkDocuments indexName idField seen documents = .ok ids) :
    ∃ entries : List Entry, entries.map Entry.document = documents ∧
      entries.map Entry.identifier = ids ∧ ∀ e ∈ entries, e.Sound indexName idField := by
  induction documents generalizing seen ids with
  | nil =>
    cases h
    exact ⟨[],rfl,rfl,by simp⟩
  | cons document documents ih =>
    simp only [checkDocuments,bind_ok] at h
    obtain ⟨identifier,hfirst,rest,hrest,hids⟩ := h
    obtain ⟨encoded,hsound⟩ := checkDocument_ok hfirst
    obtain ⟨entries,hdocuments,hidentifiers,hentries⟩ := ih hrest
    refine ⟨⟨document,identifier,encoded⟩::entries,?_,?_,List.forall_mem_cons.mpr ⟨hsound,hentries⟩⟩
    · rw [List.map_cons,hdocuments]
    · rw [List.map_cons,hidentifiers]
      exact ok_inj.mp hids

def entrySize (e : Entry) : ℕ := e.encoded.length

def payloadOf (group : List Entry) : BulkPayload :=
  ⟨group.flatMap Entry.encoded,group.map Entry.identifier⟩

theorem content_length (group : List Entry) :
    (payloadOf group).content.length = total entrySize group := by
  rw [payloadOf,List.length_flatMap]
  rfl

theorem content_nil {group : List Entry} (h : ∀ e ∈ group, e.Sound indexName idField) :
    (payloadOf group).content = [] ↔ group = [] := by
  cases group with
  | nil => simp [payloadOf]
  | cons e group =>
    have hne := documentLines_nonempty (h e List.mem_cons_self).lines
    simp [payloadOf,hne]

theorem payloadsFrom_groups {held entries : List Entry}
    (hheld : ∀ e ∈ held, e.Sound indexName idField)
    (hentries : ∀ e ∈ entries, e.Sound indexName idField) :
    payloadsFrom indexName (payloadOf held).content (payloadOf held).documentIds
        (entries.map Entry.document) (entries.map Entry.identifier) =
      ⟨(groupsFrom maxBulkBytes entrySize held entries).map payloadOf,none⟩ := by
  induction entries generalizing held with
  | nil =>
    rw [groupsFrom_nil,List.map_nil,List.map_nil,payloadsFrom]
    by_cases hne : held = []
    · rw [if_pos hne,if_pos ((content_nil hheld).mpr hne),List.map_nil]
    · rw [if_neg hne,if_neg (mt (content_nil hheld).mp hne)]
      rfl
  | cons e entries ih =>
    have he := hentries e List.mem_cons_self
    have hrest : ∀ d ∈ entries, d.Sound indexName idField := fun d hd =>
      hentries d (List.mem_cons_of_mem e hd)
    have hbytes := documentBytes_ok.mpr ⟨he.lines,he.bounded⟩
    rw [List.map_cons,List.map_cons,payloadsFrom,hbytes]
    dsimp only
    have hfull : ((payloadOf held).content ≠ [] ∧
        maxBulkBytes < (payloadOf held).content.length+e.encoded.length) ↔
          held ≠ [] ∧ maxBulkBytes < total entrySize held+entrySize e := by
      rw [content_length,Ne,content_nil hheld]
      rfl
    by_cases h : held ≠ [] ∧ maxBulkBytes < total entrySize held+entrySize e
    · have hone : payloadOf [e] = ⟨e.encoded,[e.identifier]⟩ := by simp [payloadOf]
      have hnext := ih (List.forall_mem_singleton.mpr he) hrest
      rw [hone] at hnext
      rw [if_pos (hfull.mpr h),groupsFrom_full h,hnext]
      rfl
    · have hmore : payloadOf (held++[e]) =
          ⟨(payloadOf held).content++e.encoded,(payloadOf held).documentIds++[e.identifier]⟩ := by
        simp [payloadOf]
      have hlonger : ∀ d ∈ held++[e], d.Sound indexName idField := by
        intro d hd
        rcases List.mem_append.mp hd with hd | hd
        · exact hheld d hd
        · rwa [List.mem_singleton.mp hd]
      have hnext := ih hlonger hrest
      rw [hmore] at hnext
      rw [if_neg (mt hfull.mp h),groupsFrom_fits h,hnext]

/-- The payload of a run of neighbouring documents. -/
structure Carries (indexName idField : PyText) (group : List Value) (p : BulkPayload) : Prop where
  content : (group.mapM (encoding indexName idField)).map List.flatten = some p.content
  ids : group.mapM (idOf idField) = some p.documentIds

/-- The next payload's first document would not have fitted. -/
def NoMerge (indexName idField : PyText) (a b : List Value × BulkPayload) : Prop :=
  ∃ document encoded, b.1.head? = some document ∧
    encoding indexName idField document = some encoded ∧
      maxBulkBytes < a.2.content.length+encoded.length

structure Delivered (indexName idField : PyText) (documents : List Value)
    (payloads : List BulkPayload) : Prop where
  content : (documents.mapM (encoding indexName idField)).map List.flatten =
    some (payloads.flatMap BulkPayload.content)
  ids : documents.mapM (idOf idField) = some (payloads.flatMap BulkPayload.documentIds)
  nonempty : ∀ p ∈ payloads, p.content ≠ [] ∧ p.documentIds ≠ []
  bounded : ∀ p ∈ payloads, p.content.length ≤ maxBulkBytes
  grouped : ∃ groups : List (List Value), groups.flatten = documents ∧
    List.Forall₂ (Carries indexName idField) groups payloads ∧
      (groups.zip payloads).IsChain (NoMerge indexName idField)

theorem sound_encoding {e : Entry} (h : e.Sound indexName idField) :
    encoding indexName idField e.document = some e.encoded := by
  rw [encoding,h.named,Option.bind_some,h.lines]

theorem carries_entries {group : List Entry} (h : ∀ e ∈ group, e.Sound indexName idField) :
    Carries indexName idField (group.map Entry.document) (payloadOf group) := by
  have hcontent : (group.map Entry.document).mapM (encoding indexName idField) =
      some (group.map Entry.encoded) := by
    rw [mapM_some,List.forall₂_map_left_iff,List.forall₂_map_right_iff,
      List.forall₂_same]
    exact fun e he => sound_encoding (h e he)
  have hids : (group.map Entry.document).mapM (idOf idField) =
      some (group.map Entry.identifier) := by
    rw [mapM_some,List.forall₂_map_left_iff,List.forall₂_map_right_iff,
      List.forall₂_same]
    exact fun e he => (h e he).named
  refine ⟨?_,hids⟩
  rw [hcontent,Option.map_some,payloadOf,List.flatMap_def]

theorem delivered_entries {entries : List Entry} (h : ∀ e ∈ entries, e.Sound indexName idField) :
    Delivered indexName idField (entries.map Entry.document)
      ((groupsFrom maxBulkBytes entrySize [] entries).map payloadOf) := by
  have hflat : (groupsFrom maxBulkBytes entrySize [] entries).flatten = entries :=
    pack_flatten entries
  have hmember : ∀ g ∈ groupsFrom maxBulkBytes entrySize [] entries,
      ∀ e ∈ g, e.Sound indexName idField := by
    intro g hg e he
    apply h
    rw [← hflat]
    exact List.mem_flatten.mpr ⟨g,hg,he⟩
  have htotal : ∀ g ∈ groupsFrom maxBulkBytes entrySize [] entries,
      total entrySize g ≤ maxBulkBytes :=
    groupsFrom_total (Nat.zero_le _) fun e he => (h e he).bounded
  have hall := carries_entries h
  constructor
  · rw [hall.content,payloadOf,List.flatMap_map]
    conv_lhs => rw [← hflat]
    rw [List.flatMap_def,List.map_flatten,List.flatten_flatten,List.map_map]
    rfl
  · rw [hall.ids,payloadOf,List.flatMap_map]
    conv_lhs => rw [← hflat]
    rw [List.map_flatten,List.flatMap_def]
    rfl
  · intro p hp
    obtain ⟨g,hg,rfl⟩ := List.mem_map.mp hp
    have hne := groupsFrom_nonempty [] entries g hg
    exact ⟨mt (content_nil (hmember g hg)).mp hne,by simpa [payloadOf] using hne⟩
  · intro p hp
    obtain ⟨g,hg,rfl⟩ := List.mem_map.mp hp
    rw [content_length]
    exact htotal g hg
  · refine ⟨(groupsFrom maxBulkBytes entrySize [] entries).map (List.map Entry.document),?_,?_,?_⟩
    · rw [← List.map_flatten,hflat]
    · rw [List.forall₂_map_left_iff,List.forall₂_map_right_iff,List.forall₂_same]
      exact fun g hg => carries_entries (hmember g hg)
    · rw [List.zip_map',List.isChain_map]
      apply List.IsChain.imp_of_mem_imp _ (groupsFrom_full_chain [] entries)
      intro g k hg hk hfull
      obtain ⟨e,rest,rfl⟩ := List.exists_cons_of_ne_nil (groupsFrom_nonempty [] entries k hk)
      have he := hmember _ hk e List.mem_cons_self
      have hroom := hfull e rfl
      rw [← content_length] at hroom
      exact ⟨e.document,e.encoded,rfl,sound_encoding he,hroom⟩

/-- A batch is refused as a whole or delivered as a whole. -/
theorem payloads_bounded (indexName documents idField : Value) :
    (∃ message, boundedBulkPayloads indexName documents idField = .error message) ∨
      ∃ indexText items idText c, indexName = .str indexText ∧ documents = .tuple items ∧
        idField = .str idText ∧ boundedBulkPayloads indexName documents idField = .ok c ∧
          c.raised = none ∧ Delivered indexText idText items c.payloads := by
  cases hrun : boundedBulkPayloads indexName documents idField with
  | error message => exact Or.inl ⟨message,rfl⟩
  | ok c =>
    right
    unfold boundedBulkPayloads at hrun
    split at hrun
    · next items indexText idText =>
      split at hrun
      · cases hrun
      · obtain ⟨ids,hids,hc⟩ := bind_ok.mp hrun
        obtain ⟨entries,rfl,rfl,hsound⟩ := checkDocuments_ok hids
        have hnone : ∀ e ∈ ([] : List Entry), e.Sound indexText idText := by simp
        have hgroups := payloadsFrom_groups hnone hsound
        have hpayloads : payloads indexText (entries.map Entry.document)
            (entries.map Entry.identifier) = c := ok_inj.mp hc
        rw [payloads] at hpayloads
        rw [← hpayloads]
        refine ⟨indexText,_,idText,_,rfl,rfl,rfl,rfl,?_⟩
        have hstart : payloadOf [] = ⟨[],[]⟩ := rfl
        rw [hstart] at hgroups
        rw [hgroups]
        exact ⟨rfl,delivered_entries hsound⟩
    · cases hrun

def documentSize (indexName idField : PyText) (document : Value) : ℕ :=
  ((encoding indexName idField document).map List.length).getD 0

theorem total_documents {group : List Entry} (h : ∀ e ∈ group, e.Sound indexName idField) :
    total (documentSize indexName idField) (group.map Entry.document) = total entrySize group := by
  rw [total,total,List.map_map]
  apply congrArg List.sum
  apply List.map_congr_left
  intro e he
  rw [Function.comp_apply,documentSize,sound_encoding (h e he)]
  rfl

/-- No other way to cut the batch into requests within the limit takes fewer of them. -/
theorem payloads_fewest {documents : List Value} {c : Consumed}
    (h : boundedBulkPayloads (.str indexName) (.tuple documents) (.str idField) = .ok c)
    (parts : List (List Value)) (hparts : parts.flatten = documents)
    (hbounded : ∀ part ∈ parts, total (documentSize indexName idField) part ≤ maxBulkBytes) :
    c.payloads.length ≤ parts.length := by
  rw [boundedBulkPayloads] at h
  split at h
  · cases h
  obtain ⟨ids,hids,hc⟩ := bind_ok.mp h
  obtain ⟨entries,rfl,rfl,hsound⟩ := checkDocuments_ok hids
  have hpayloads : payloadsFrom indexName [] [] (entries.map Entry.document)
      (entries.map Entry.identifier) = c := ok_inj.mp hc
  have hnone : ∀ e ∈ ([] : List Entry), e.Sound indexName idField := nofun
  have hgroups := payloadsFrom_groups hnone hsound
  have hflat : (groupsFrom maxBulkBytes entrySize [] entries).flatten = entries :=
    pack_flatten entries
  have hmember : ∀ g ∈ groupsFrom maxBulkBytes entrySize [] entries,
      ∀ e ∈ g, e.Sound indexName idField := fun g hg e he =>
    hsound e (hflat ▸ List.mem_flatten.mpr ⟨g,hg,he⟩)
  have hfew : ((groupsFrom maxBulkBytes entrySize [] entries).map
      (List.map Entry.document)).length ≤ parts.length := by
    have hcover : parts.flatten = []++((groupsFrom maxBulkBytes entrySize [] entries).map
        (List.map Entry.document)).flatten := by
      rw [← List.map_flatten,hflat]
      exact hparts
    apply full_fewest _ _ hbounded hcover
    · intro g hg hnil
      obtain ⟨k,hk,rfl⟩ := List.mem_map.mp hg
      exact groupsFrom_nonempty [] entries k hk (List.map_eq_nil_iff.mp hnil)
    · rw [List.isChain_map]
      apply List.IsChain.imp_of_mem_imp _ (groupsFrom_full_chain [] entries)
      intro g k hg hk hfull document hdocument
      obtain ⟨e,rest,rfl⟩ := List.exists_cons_of_ne_nil (groupsFrom_nonempty [] entries k hk)
      cases hdocument
      rw [total_documents (hmember g hg),documentSize,
        sound_encoding (hmember _ hk e List.mem_cons_self)]
      exact hfull e rfl
  rw [← hpayloads]
  have hstart : payloadOf [] = ⟨[],[]⟩ := rfl
  rw [hstart] at hgroups
  rw [hgroups]
  simpa using hfew

def sampleName : PyText := plainText ['k']

def sampleDocument : Value := .dict [(.str sampleName,.str sampleName)]

theorem sample_fewest : ∃ c, boundedBulkPayloads (.str sampleName) (.tuple [sampleDocument])
    (.str sampleName) = .ok c ∧ c.payloads.length ≤ 2 := by
  have hrun : ∃ c, boundedBulkPayloads (.str sampleName) (.tuple [sampleDocument])
      (.str sampleName) = .ok c := ⟨_,rfl⟩
  obtain ⟨c,hc⟩ := hrun
  exact ⟨c,hc,payloads_fewest hc [[sampleDocument],[]] rfl (by decide)⟩

end LawyerAgent.BoundedBulk
