import LawyerAgent.Diffing.Keyed
import LawyerAgent.LegalCorpus
import LawyerAgent.Outcomes.Except
import Mathlib.Data.String.Basic

/-!
# Differences of two versions

The articles of two source files are compared before an import, the provisions
of two stored versions after it. A source file strips the numbers and refuses
repeated ones; of a stored version the last provision of a number counts.
-/

set_option autoImplicit false

namespace LawyerAgent.LegalDiffs
open Outcomes Common LegalCorpus
open LegalVersions (nonempty)
open PythonText (strip stripString)

structure SourceArticle where
  provisionNo : String
  structurePath : List String
  text : List Char

structure SourceDiffEntry where
  provisionNo : String
  structurePath : List String
  fullText : List Char
deriving DecidableEq

structure Modified (α : Type) where
  provisionNo : String
  previous : α
  current : α

structure LegalSourceDiff where
  changed : Bool
  added : List SourceDiffEntry
  removed : List SourceDiffEntry
  modified : List (Modified SourceDiffEntry)
  unchanged : List SourceDiffEntry

def entryOf (article : SourceArticle) : SourceDiffEntry :=
  ⟨stripString article.provisionNo,article.structurePath,article.text⟩

/-- `_index`; the entries stand in their order and are looked up by number. -/
def index : List SourceDiffEntry → List SourceArticle → Except String (List SourceDiffEntry)
  | order, [] => .ok order
  | order, article::articles =>
    if strip article.provisionNo.toList = [] then .error "provision number must be non-empty text"
    else if strip article.text = [] then .error "article full text must be non-empty"
    else if (entryOf article).provisionNo ∈ order.map SourceDiffEntry.provisionNo then
      .error ("duplicate provision number: "++(entryOf article).provisionNo)
    else index (order++[entryOf article]) articles

def modifiedOf {α : Type} (number : α → String) (pair : α × α) : Modified α :=
  ⟨number pair.1,pair.1,pair.2⟩

def sourceDiff (old new : List SourceDiffEntry) : LegalSourceDiff :=
  let removed := Diffing.removed SourceDiffEntry.provisionNo old new
  let modified := Diffing.modified SourceDiffEntry.provisionNo SourceDiffEntry.fullText old new
  let added := Diffing.added SourceDiffEntry.provisionNo old new
  { changed := !(added.isEmpty && removed.isEmpty && modified.isEmpty)
    added := added
    removed := removed
    modified := modified.map (modifiedOf SourceDiffEntry.provisionNo)
    unchanged := Diffing.unchanged SourceDiffEntry.provisionNo SourceDiffEntry.fullText old new }

def diffSourceArticles (oldArticles newArticles : List SourceArticle) :
    Except String LegalSourceDiff := do
  let old ← index [] oldArticles
  let new ← index [] newArticles
  return sourceDiff old new

variable {sha256 : List UInt8 → Digest}

def numberOf (p : Provision sha256) : String := p.value.provisionNo

def textOf (p : Provision sha256) : List Char := p.value.fullText

/-- One entry of `{p.provision_no: p for p in provisions}`. -/
def put (items : List (Provision sha256)) (p : Provision sha256) : List (Provision sha256) :=
  if numberOf p ∈ items.map numberOf then
    items.map fun q => if numberOf q = numberOf p then p else q
  else items++[p]

def byNumber (provisions : List (Provision sha256)) : List (Provision sha256) :=
  provisions.foldl put []

structure LegalVersionDiff (sha256 : List UInt8 → Digest) where
  instrumentId : UUID7
  fromVersionId : UUID7
  toVersionId : UUID7
  added : List (Provision sha256)
  removed : List (Provision sha256)
  modified : List (Modified (Provision sha256))
  unchanged : List (Provision sha256)
  distinct : fromVersionId ≠ toVersionId

def place (p : Provision sha256) : ℕ ×ₗ String := toLex (p.value.charStart,p.value.provisionNo)

def sorted (provisions : List (Provision sha256)) : List (Provision sha256) :=
  provisions.insertionSort fun p q => place p ≤ place q

def sortedPairs (pairs : List (Provision sha256 × Provision sha256)) :
    List (Provision sha256 × Provision sha256) :=
  pairs.insertionSort fun m n =>
    toLex (m.2.value.charStart,numberOf m.1) ≤ toLex (n.2.value.charStart,numberOf n.1)

def groupVersions (old new : List (Provision sha256)) (instrumentId : UUID7)
    {fromVersionId toVersionId : UUID7} (h : fromVersionId ≠ toVersionId) :
    LegalVersionDiff sha256 where
  instrumentId := instrumentId
  fromVersionId := fromVersionId
  toVersionId := toVersionId
  added := sorted (Diffing.added numberOf old new)
  removed := sorted (Diffing.removed numberOf old new)
  modified := (sortedPairs (Diffing.modified numberOf textOf old new)).map (modifiedOf numberOf)
  unchanged := sorted (Diffing.unchanged numberOf textOf old new)
  distinct := h

def versionDiff (oldProvisions newProvisions : List (Provision sha256))
    (instrumentId fromVersionId toVersionId : UUID7) : Except String (LegalVersionDiff sha256) :=
  if h : fromVersionId = toVersionId then .error "diff requires two distinct versions"
  else .ok (groupVersions (byNumber oldProvisions) (byNumber newProvisions) instrumentId h)

def pairsOf {α : Type} (modified : List (Modified α)) : List (α × α) :=
  modified.map fun m => (m.previous,m.current)

def LegalSourceDiff.numbers (d : LegalSourceDiff) : List String :=
  d.added.map SourceDiffEntry.provisionNo++d.removed.map SourceDiffEntry.provisionNo++
    d.modified.map Modified.provisionNo++d.unchanged.map SourceDiffEntry.provisionNo

def LegalVersionDiff.numbers (d : LegalVersionDiff sha256) : List String :=
  d.added.map numberOf++d.removed.map numberOf++d.modified.map Modified.provisionNo++
    d.unchanged.map numberOf

/-- The numbers of a source file, without the blanks around them. -/
def articleNumbers (articles : List SourceArticle) : List String :=
  articles.map fun a => stripString a.provisionNo

def articleTexts (articles : List SourceArticle) : List (String × List Char) :=
  articles.map fun a => (stripString a.provisionNo,a.text)

variable {articles newArticles oldArticles : List SourceArticle}
  {provisions : List (Provision sha256)}

theorem index_ok {order entries : List SourceDiffEntry}
    (horder : (order.map SourceDiffEntry.provisionNo).Nodup)
    (h : index order articles = .ok entries) :
    entries = order++articles.map entryOf ∧
      (entries.map SourceDiffEntry.provisionNo).Nodup := by
  induction articles generalizing order with
  | nil =>
    cases h
    exact ⟨(List.append_nil _).symm,horder⟩
  | cons article articles ih =>
    rw [index] at h
    split at h
    · cases h
    split at h
    · cases h
    split at h
    · cases h
    · next hnew =>
      have honce : ((order++[entryOf article]).map SourceDiffEntry.provisionNo).Nodup := by
        rw [List.map_append]
        exact List.nodup_append'.mpr
          ⟨horder,List.nodup_singleton _,List.disjoint_singleton.mpr hnew⟩
      obtain ⟨hentries,hnodup⟩ := ih honce h
      refine ⟨?_,hnodup⟩
      rw [hentries,List.append_assoc]
      rfl

theorem index_succeeds {order : List SourceDiffEntry}
    (hnumbers : ∀ a ∈ articles, strip a.provisionNo.toList ≠ [])
    (htexts : ∀ a ∈ articles, strip a.text ≠ [])
    (honce : ((order++articles.map entryOf).map SourceDiffEntry.provisionNo).Nodup) :
    index order articles = .ok (order++articles.map entryOf) := by
  induction articles generalizing order with
  | nil => rw [index,List.map_nil,List.append_nil]
  | cons article articles ih =>
    have happend : order++(article::articles).map entryOf =
        order++[entryOf article]++articles.map entryOf := by
      rw [List.append_assoc]
      rfl
    have hnew : (entryOf article).provisionNo ∉ order.map SourceDiffEntry.provisionNo := by
      rw [List.map_append,List.nodup_append'] at honce
      intro hmem
      exact honce.2.2 hmem List.mem_cons_self
    rw [index,if_neg (hnumbers _ List.mem_cons_self),if_neg (htexts _ List.mem_cons_self),
      if_neg hnew,happend]
    apply ih (fun a ha => hnumbers a (List.mem_cons_of_mem _ ha))
      (fun a ha => htexts a (List.mem_cons_of_mem _ ha))
    rw [← happend]
    exact honce

theorem index_entries {entries : List SourceDiffEntry} (h : index [] articles = .ok entries) :
    entries = articles.map entryOf ∧
      (entries.map SourceDiffEntry.provisionNo).Nodup := by
  have hempty : (([] : List SourceDiffEntry).map SourceDiffEntry.provisionNo).Nodup :=
    List.nodup_nil
  exact index_ok hempty h

theorem entries_numbers (articles : List SourceArticle) :
    (articles.map entryOf).map SourceDiffEntry.provisionNo = articleNumbers articles := by
  rw [List.map_map]
  rfl

theorem entries_texts (articles : List SourceArticle) :
    (articles.map entryOf).map (fun e => (e.provisionNo,e.fullText)) = articleTexts articles := by
  rw [List.map_map]
  rfl

theorem sourceDiff_numbers (old new : List SourceDiffEntry) : (sourceDiff old new).numbers =
    Diffing.groupKeys SourceDiffEntry.provisionNo SourceDiffEntry.fullText old new := by
  rw [LegalSourceDiff.numbers,sourceDiff,Diffing.groupKeys]
  dsimp only
  rw [List.map_map]
  rfl

theorem pairsOf_modified {α : Type} (number : α → String) (pairs : List (α × α)) :
    pairsOf (pairs.map (modifiedOf number)) = pairs := by
  rw [pairsOf,List.map_map]
  exact List.map_id pairs

theorem sourceDiff_changed (old new : List SourceDiffEntry) : (sourceDiff old new).changed = false ↔
    Diffing.added SourceDiffEntry.provisionNo old new = [] ∧
      Diffing.removed SourceDiffEntry.provisionNo old new = [] ∧
      Diffing.modified SourceDiffEntry.provisionNo SourceDiffEntry.fullText old new = [] := by
  rw [sourceDiff]
  dsimp only
  rw [Bool.not_eq_false',Bool.and_eq_true,Bool.and_eq_true,List.isEmpty_iff,List.isEmpty_iff,
    List.isEmpty_iff,and_assoc]

theorem put_numbers (items : List (Provision sha256)) (p : Provision sha256) :
    (put items p).map numberOf =
      if numberOf p ∈ items.map numberOf then items.map numberOf
      else items.map numberOf++[numberOf p] := by
  rw [put]
  split
  · rw [List.map_map]
    apply List.map_congr_left
    intro q _
    dsimp only [Function.comp_apply]
    split
    · next hsame => exact hsame.symm
    · rfl
  · rw [List.map_append]
    rfl

theorem foldl_put_numbers (provisions items : List (Provision sha256))
    (honce : (items.map numberOf).Nodup) : ((provisions.foldl put items).map numberOf).Nodup ∧
      ∀ k, k ∈ (provisions.foldl put items).map numberOf ↔
        k ∈ items.map numberOf ∨ k ∈ provisions.map numberOf := by
  induction provisions generalizing items with
  | nil => exact ⟨honce,fun k => by simp⟩
  | cons p provisions ih =>
    have hput := put_numbers items p
    have hnodup : ((put items p).map numberOf).Nodup := by
      rw [hput]
      split
      · exact honce
      · next hnew =>
        exact List.nodup_append'.mpr
          ⟨honce,List.nodup_singleton _,List.disjoint_singleton.mpr hnew⟩
    obtain ⟨hresult,hmem⟩ := ih (put items p) hnodup
    refine ⟨hresult,fun k => ?_⟩
    rw [List.foldl_cons,hmem,hput,List.map_cons,List.mem_cons]
    split
    · next hold =>
      constructor
      · rintro (h | h)
        · exact .inl h
        · exact .inr (.inr h)
      · rintro (h | rfl | h)
        · exact .inl h
        · exact .inl hold
        · exact .inr h
    · rw [List.mem_append,List.mem_singleton,or_assoc]

theorem byNumber_once (provisions : List (Provision sha256)) :
    ((byNumber provisions).map numberOf).Nodup := (foldl_put_numbers provisions [] List.nodup_nil).1

theorem byNumber_numbers {k : String} :
    k ∈ (byNumber provisions).map numberOf ↔ k ∈ provisions.map numberOf := by
  rw [byNumber,(foldl_put_numbers provisions [] List.nodup_nil).2]
  simp

theorem foldl_put_unique (provisions items : List (Provision sha256))
    (honce : ((items++provisions).map numberOf).Nodup) :
    provisions.foldl put items = items++provisions := by
  induction provisions generalizing items with
  | nil => exact (List.append_nil items).symm
  | cons p provisions ih =>
    have happend : items++p::provisions = items++[p]++provisions := by
      rw [List.append_assoc]
      rfl
    have hnew : numberOf p ∉ items.map numberOf := by
      rw [List.map_append,List.nodup_append'] at honce
      intro hmem
      exact honce.2.2 hmem List.mem_cons_self
    rw [List.foldl_cons,put,if_neg hnew,happend]
    exact ih _ (happend ▸ honce)

theorem byNumber_unique (honce : (provisions.map numberOf).Nodup) :
    byNumber provisions = provisions :=
  foldl_put_unique provisions [] honce

theorem sorted_perm (provisions : List (Provision sha256)) : (sorted provisions).Perm provisions :=
  List.perm_insertionSort _ _

theorem sortedPairs_perm (pairs : List (Provision sha256 × Provision sha256)) :
    (sortedPairs pairs).Perm pairs := List.perm_insertionSort _ _

theorem sortedPairs_keys (pairs : List (Provision sha256 × Provision sha256)) :
    (((sortedPairs pairs).map (modifiedOf numberOf)).map Modified.provisionNo).Perm
      (pairs.map fun m => numberOf m.1) := by
  rw [List.map_map]
  exact (sortedPairs_perm pairs).map _

theorem source_classified {d : LegalSourceDiff}
    (h : diffSourceArticles oldArticles newArticles = .ok d) :
    d = sourceDiff (oldArticles.map entryOf) (newArticles.map entryOf) ∧
      ((oldArticles.map entryOf).map SourceDiffEntry.provisionNo).Nodup ∧
      ((newArticles.map entryOf).map SourceDiffEntry.provisionNo).Nodup ∧
      diffSourceArticles newArticles oldArticles =
        .ok (sourceDiff (newArticles.map entryOf) (oldArticles.map entryOf)) := by
  obtain ⟨old,hold,h⟩ := bind_ok.mp h
  obtain ⟨new,hnew,h⟩ := bind_ok.mp h
  obtain ⟨hentries,honce⟩ := index_entries hold
  obtain ⟨hnewEntries,hnewOnce⟩ := index_entries hnew
  subst hentries hnewEntries
  refine ⟨(ok_inj.mp h).symm,honce,hnewOnce,?_⟩
  rw [diffSourceArticles,hnew]
  change (index [] oldArticles).bind _ = _
  rw [hold]
  rfl

theorem source_groups {d : LegalSourceDiff} (h : diffSourceArticles oldArticles newArticles = .ok
      d) :
    d.numbers.Nodup ∧
      ∀ k, k ∈ d.numbers ↔ k ∈ articleNumbers oldArticles ∨ k ∈ articleNumbers newArticles := by
  obtain ⟨rfl,hold,hnew,-⟩ := source_classified h
  rw [sourceDiff_numbers,← entries_numbers,← entries_numbers]
  exact Diffing.groups_partition hold hnew

structure SourceSwap (d e : LegalSourceDiff) : Prop where
  added : e.added = d.removed
  removed : e.removed = d.added
  modified : ∀ a b, (a,b) ∈ pairsOf e.modified ↔ (b,a) ∈ pairsOf d.modified
  unchanged : ∀ k, k ∈ e.unchanged.map SourceDiffEntry.provisionNo ↔
    k ∈ d.unchanged.map SourceDiffEntry.provisionNo

theorem source_swap {d : LegalSourceDiff} (h : diffSourceArticles oldArticles newArticles = .ok d) :
    ∃ e, diffSourceArticles newArticles oldArticles = .ok e ∧ SourceSwap d e := by
  obtain ⟨rfl,hold,hnew,hswapped⟩ := source_classified h
  refine ⟨_,hswapped,rfl,rfl,?_,?_⟩
  · intro a b
    rw [sourceDiff,sourceDiff]
    dsimp only
    rw [pairsOf_modified,pairsOf_modified]
    exact Diffing.modified_swap hnew hold
  · exact fun k => Diffing.unchanged_swap hnew hold

theorem source_changed {d : LegalSourceDiff}
    (h : diffSourceArticles oldArticles newArticles = .ok d) :
    d.changed = false ↔
      ∀ k t, (k,t) ∈ articleTexts oldArticles ↔ (k,t) ∈ articleTexts newArticles := by
  obtain ⟨rfl,-,hnew,-⟩ := source_classified h
  rw [sourceDiff_changed,Diffing.nothing_changed hnew,entries_texts,entries_texts]

structure VersionSwap (d e : LegalVersionDiff sha256) : Prop where
  added : e.added = d.removed
  removed : e.removed = d.added
  modified : ∀ a b, (a,b) ∈ pairsOf e.modified ↔ (b,a) ∈ pairsOf d.modified
  unchanged : ∀ k, k ∈ e.unchanged.map numberOf ↔ k ∈ d.unchanged.map numberOf

variable {old new : List (Provision sha256)} {instrumentId fromVersionId toVersionId : UUID7}
  {d : LegalVersionDiff sha256}

theorem version_distinct (h : versionDiff old new instrumentId fromVersionId toVersionId = .ok d) :
    fromVersionId ≠ toVersionId := by
  intro hsame
  rw [versionDiff,dif_pos hsame] at h
  cases h

theorem versionDiff_ok (h : fromVersionId ≠ toVersionId) :
    versionDiff old new instrumentId fromVersionId toVersionId =
      .ok (groupVersions (byNumber old) (byNumber new) instrumentId h) := by
  rw [versionDiff,dif_neg h]

theorem groupVersions_numbers (old new : List (Provision sha256)) (instrumentId : UUID7)
    (h : fromVersionId ≠ toVersionId) : (groupVersions old new instrumentId h).numbers.Perm
      (Diffing.groupKeys numberOf textOf old new) :=
  ((((sorted_perm _).map numberOf).append ((sorted_perm _).map numberOf)).append
    (sortedPairs_keys _)).append ((sorted_perm _).map numberOf)

theorem version_groups (h : versionDiff old new instrumentId fromVersionId toVersionId = .ok d) :
    d.numbers.Nodup ∧ ∀ k, k ∈ d.numbers ↔ k ∈ old.map numberOf ∨ k ∈ new.map numberOf := by
  have hdistinct := version_distinct h
  have hdiff := (versionDiff_ok hdistinct).symm.trans h
  obtain rfl := Except.ok.inj hdiff
  have hperm := groupVersions_numbers (byNumber old) (byNumber new) instrumentId hdistinct
  have hgroups : (Diffing.groupKeys numberOf textOf (byNumber old) (byNumber new)).Nodup ∧ _ :=
    Diffing.groups_partition (byNumber_once old) (byNumber_once new)
  refine ⟨hperm.nodup_iff.mpr hgroups.1,fun k => ?_⟩
  rw [hperm.mem_iff,hgroups.2,byNumber_numbers,byNumber_numbers]

theorem mem_pairsOf_sorted {pairs : List (Provision sha256 × Provision sha256)}
    {m : Provision sha256 × Provision sha256} :
    m ∈ pairsOf ((sortedPairs pairs).map (modifiedOf numberOf)) ↔ m ∈ pairs := by
  rw [pairsOf_modified,(sortedPairs_perm pairs).mem_iff]

theorem mem_numbers_sorted {k : String} :
    k ∈ (sorted provisions).map numberOf ↔ k ∈ provisions.map numberOf :=
  ((sorted_perm provisions).map numberOf).mem_iff

theorem version_swap (h : versionDiff old new instrumentId fromVersionId toVersionId = .ok d) :
    ∃ e, versionDiff new old instrumentId toVersionId fromVersionId = .ok e ∧ VersionSwap d e := by
  have hdistinct := version_distinct h
  have hdiff := (versionDiff_ok hdistinct).symm.trans h
  obtain rfl := Except.ok.inj hdiff
  refine ⟨_,versionDiff_ok hdistinct.symm,rfl,rfl,?_,?_⟩
  · intro a b
    exact mem_pairsOf_sorted.trans ((Diffing.modified_swap (byNumber_once new)
      (byNumber_once old)).trans mem_pairsOf_sorted.symm)
  · intro k
    exact mem_numbers_sorted.trans ((Diffing.unchanged_swap (byNumber_once new)
      (byNumber_once old)).trans mem_numbers_sorted.symm)

def articleOf (p : Provision sha256) : SourceArticle :=
  ⟨p.value.provisionNo,p.value.structurePath,p.value.fullText⟩

/-- The same number stands in the same group of both reports. -/
structure SameGroups (d : LegalSourceDiff) (e : LegalVersionDiff sha256) : Prop where
  added : ∀ k, k ∈ d.added.map SourceDiffEntry.provisionNo ↔ k ∈ e.added.map numberOf
  removed : ∀ k, k ∈ d.removed.map SourceDiffEntry.provisionNo ↔ k ∈ e.removed.map numberOf
  modified : ∀ k, k ∈ d.modified.map Modified.provisionNo ↔ k ∈ e.modified.map Modified.provisionNo
  unchanged : ∀ k, k ∈ d.unchanged.map SourceDiffEntry.provisionNo ↔ k ∈ e.unchanged.map numberOf

/-- The numbers of a version are unique and have no blanks around them. -/
structure Plain (provisions : List (Provision sha256)) : Prop where
  once : (provisions.map numberOf).Nodup
  stripped : ∀ p ∈ provisions, stripString (numberOf p) = numberOf p

theorem plain_numbers (h : Plain provisions) :
    ((provisions.map articleOf).map entryOf).map SourceDiffEntry.provisionNo =
      provisions.map numberOf := by
  rw [List.map_map,List.map_map]
  exact List.map_congr_left h.stripped

theorem provision_number (p : Provision sha256) : strip p.value.provisionNo.toList ≠ [] := by
  have hcheck := firstError_none p.valid (c := (nonempty p.value.provisionNo,_)) List.mem_cons_self
  simpa [nonempty] using hcheck

theorem provision_text (p : Provision sha256) : strip p.value.fullText ≠ [] := by
  have hcheck := firstError_none p.valid (c := (hasText p.value.fullText,_))
    (List.mem_cons_of_mem _ List.mem_cons_self)
  simpa [hasText] using hcheck

theorem plain_index (h : Plain provisions) :
    index [] (provisions.map articleOf) = .ok ((provisions.map articleOf).map entryOf) := by
  apply index_succeeds
  · intro a ha
    obtain ⟨p,-,rfl⟩ := List.mem_map.mp ha
    exact provision_number p
  · intro a ha
    obtain ⟨p,-,rfl⟩ := List.mem_map.mp ha
    exact provision_text p
  · rw [List.nil_append,plain_numbers h]
    exact h.once

theorem plain_texts (h : Plain provisions) :
    ((provisions.map articleOf).map entryOf).map (fun e => (e.provisionNo,e.fullText)) =
      provisions.map fun p => (numberOf p,textOf p) := by
  rw [List.map_map,List.map_map]
  exact List.map_congr_left fun p hp => congrArg (·,textOf p) (h.stripped p hp)

theorem groups_agree (hold : Plain old) (hnew : Plain new)
    (hdistinct : fromVersionId ≠ toVersionId) :
    ∃ d e, diffSourceArticles (old.map articleOf) (new.map articleOf) = .ok d ∧
      versionDiff old new instrumentId fromVersionId toVersionId = .ok e ∧ SameGroups d e := by
  have hsource : diffSourceArticles (old.map articleOf) (new.map articleOf) =
      .ok (sourceDiff ((old.map articleOf).map entryOf) ((new.map articleOf).map entryOf)) := by
    rw [diffSourceArticles,plain_index hold]
    change (index [] (new.map articleOf)).bind _ = _
    rw [plain_index hnew]
    rfl
  obtain ⟨-,holdOnce,hnewOnce,-⟩ := source_classified hsource
  refine ⟨_,_,hsource,versionDiff_ok hdistinct,?_,?_,?_,?_⟩
  · intro k
    change _ ↔ k ∈ (sorted (Diffing.added numberOf (byNumber old) (byNumber new))).map numberOf
    rw [mem_numbers_sorted,byNumber_unique hold.once,byNumber_unique hnew.once,
      Diffing.added_keys,← plain_numbers hold,← plain_numbers hnew]
    exact Diffing.added_keys
  · intro k
    change _ ↔ k ∈ (sorted (Diffing.removed numberOf (byNumber old) (byNumber new))).map numberOf
    rw [mem_numbers_sorted,byNumber_unique hold.once,byNumber_unique hnew.once,
      Diffing.removed_keys,← plain_numbers hold,← plain_numbers hnew]
    exact Diffing.removed_keys
  · intro k
    change _ ↔ k ∈ ((sortedPairs _).map (modifiedOf numberOf)).map Modified.provisionNo
    rw [(sortedPairs_keys _).mem_iff,byNumber_unique hold.once,byNumber_unique hnew.once,
      Diffing.modified_texts hnew.once,← plain_texts hold,← plain_texts hnew,
      ← Diffing.modified_texts hnewOnce]
    change k ∈ (List.map _ _).map Modified.provisionNo ↔ _
    rw [List.map_map]
    exact Iff.rfl
  · intro k
    change _ ↔ k ∈ (sorted (Diffing.unchanged numberOf textOf (byNumber old) (byNumber new))).map
      numberOf
    rw [mem_numbers_sorted,byNumber_unique hold.once,byNumber_unique hnew.once,
      Diffing.unchanged_texts hnew.once,← plain_texts hold,← plain_texts hnew]
    exact Diffing.unchanged_texts hnewOnce

/-- Both reports put every number of the two versions into exactly one group, exchange
their groups with the versions, and agree on versions with plain numbers; a source
report is unchanged when the files have the same numbers with the same texts. -/
theorem diffs_classify (sha256 : List UInt8 → Digest) :
    (∀ (oldArticles newArticles : List SourceArticle) (d : LegalSourceDiff),
      diffSourceArticles oldArticles newArticles = .ok d →
      (d.numbers.Nodup ∧ ∀ k, k ∈ d.numbers ↔
        k ∈ articleNumbers oldArticles ∨ k ∈ articleNumbers newArticles) ∧
      (∃ e, diffSourceArticles newArticles oldArticles = .ok e ∧ SourceSwap d e) ∧
      (d.changed = false ↔
        ∀ k t, (k,t) ∈ articleTexts oldArticles ↔ (k,t) ∈ articleTexts newArticles)) ∧
    (∀ (old new : List (Provision sha256)) (instrumentId fromVersionId toVersionId : UUID7)
      (d : LegalVersionDiff sha256),
      versionDiff old new instrumentId fromVersionId toVersionId = .ok d →
      (d.numbers.Nodup ∧ ∀ k, k ∈ d.numbers ↔ k ∈ old.map numberOf ∨ k ∈ new.map numberOf) ∧
      ∃ e, versionDiff new old instrumentId toVersionId fromVersionId = .ok e ∧ VersionSwap d e) ∧
    ∀ (old new : List (Provision sha256)) (instrumentId fromVersionId toVersionId : UUID7),
      Plain old → Plain new → fromVersionId ≠ toVersionId →
      ∃ d e, diffSourceArticles (old.map articleOf) (new.map articleOf) = .ok d ∧
        versionDiff old new instrumentId fromVersionId toVersionId = .ok e ∧ SameGroups d e :=
  ⟨fun _ _ _ h => ⟨source_groups h,source_swap h,source_changed h⟩,
    fun _ _ _ _ _ _ h => ⟨version_groups h,version_swap h⟩,
    fun _ _ _ _ _ hold hnew h => groups_agree hold hnew h⟩

def oldFile : List SourceArticle := [⟨"1",[],['a']⟩,⟨"2",[],['b']⟩]

def newFile : List SourceArticle := [⟨"2",[],['c']⟩,⟨" 3",[],['d']⟩]

def provisionFields (number : String) (text : List Char) : ProvisionFields where
  id := ⟨0,1,0⟩
  versionId := ⟨0,2,0⟩
  provisionNo := number
  level := .article
  structurePath := []
  title := none
  fullText := text
  contentHash := 0
  charStart := 0
  charEnd := 1

def firstProvision : Provision fun _ => (0 : Digest) :=
  ⟨provisionFields "1" ['a'],by decide⟩

def secondProvision : Provision fun _ => (0 : Digest) :=
  ⟨provisionFields "2" ['b'],by decide⟩

theorem small_classified : (∃ d, diffSourceArticles oldFile newFile = .ok d ∧ d.numbers.Nodup) ∧
    ∃ d e, diffSourceArticles ([firstProvision].map articleOf) ([secondProvision].map articleOf) =
      .ok d ∧ versionDiff [firstProvision] [secondProvision] ⟨0,3,0⟩ ⟨0,4,0⟩ ⟨0,5,0⟩ = .ok e ∧
      e.numbers.Nodup ∧ SameGroups d e := by
  have hok : (diffSourceArticles oldFile newFile).isOk = true := by decide
  have hclassify := diffs_classify fun _ => 0
  constructor
  · cases hdiff : diffSourceArticles oldFile newFile with
    | error message =>
      rw [hdiff] at hok
      cases hok
    | ok d => exact ⟨d,rfl,(hclassify.1 oldFile newFile d hdiff).1.1⟩
  · have hfirst : Plain [firstProvision] := ⟨by decide,by decide⟩
    have hsecond : Plain [secondProvision] := ⟨by decide,by decide⟩
    obtain ⟨d,e,hd,he,hsame⟩ :=
      hclassify.2.2 _ _ ⟨0,3,0⟩ ⟨0,4,0⟩ ⟨0,5,0⟩ hfirst hsecond (by decide)
    exact ⟨d,e,hd,he,(hclassify.2.1 _ _ _ _ _ e he).1.1,hsame⟩

/-- A number with a blank before it is taken for the number. -/
theorem spaced_unchanged : ∃ d,
    diffSourceArticles [⟨" 1",[],['a']⟩] [⟨"1",[],['a']⟩] = .ok d ∧ d.changed = false ∧
      " 1" ≠ "1" ∧ " 1" ∉ d.numbers := by
  have hrun : ((diffSourceArticles [⟨" 1",[],['a']⟩] [⟨"1",[],['a']⟩]).toOption.map fun d =>
      (d.changed,d.numbers)) = some (false,["1"]) := by decide
  cases hdiff : diffSourceArticles [⟨" 1",[],['a']⟩] [⟨"1",[],['a']⟩] with
  | error message =>
    rw [hdiff] at hrun
    cases hrun
  | ok d =>
    rw [hdiff] at hrun
    obtain ⟨hchanged,hnumbers⟩ := Prod.mk.inj (Option.some.inj hrun)
    refine ⟨d,rfl,hchanged,by decide,?_⟩
    rw [hnumbers]
    decide

end LawyerAgent.LegalDiffs
