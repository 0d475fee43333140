import LawyerAgent.ReleaseProvenance

/-!
# What a release provenance guarantees

A provenance is read back from its document. Its entries and replaced sources
are the rows of the source reports, each once, and its digest determines them.
-/

set_option autoImplicit false

namespace LawyerAgent.ReleaseProvenance
open Common CanonicalJson JsonReader
open WireEnvelope (UUID uuidString_inj)
open EnvelopeDelivery (readUUID_text)
open Outcomes (require require_ok bind_ok)

theorem under_all {code : String} {conditions : List Bool}
    (h : firstError (under code conditions) = none) : ∀ c ∈ conditions, c = true := by
  intro c hc
  exact firstError_none h (c := (c,code)) (List.mem_map_of_mem hc)

variable {α : Type} {json : α → Json}

theorem checked_ext {checks : Checks α} {a b : Checked checks} (h : a.value = b.value) : a = b := by
  cases a
  cases b
  cases h
  rfl

theorem objectOf_own {fields : JsonObject} {names : List String}
    (h : fields.map Prod.fst = names) : objectOf (.object fields) names = .ok fields := by
  subst h
  exact if_pos (List.Perm.refl _)

theorem ok_bind {α β : Type} (a : α) (f : α → Except String β) :
    ((.ok a : Except String α) >>= f) = f a := rfl

theorem uuidOf_json (id : UUID) : uuidOf (uuidJson id) = .ok id := by
  simp [uuidOf,uuidJson,readUUID_text,stringOf]

theorem optionOf_json {read : Json → Option α} (o : Option α) (hread : ∀ a, read (json a) = some a)
    (hnull : ∀ a, json a ≠ .null) :
    optionOf read (optionJson json o) = some o := by
  cases o with
  | none => rfl
  | some a =>
    have hsome : optionOf read (json a) = (read (json a)).map some := by
      cases hj : json a with
      | null => exact absurd hj (hnull a)
      | _ => rfl
    exact hsome.trans (by rw [hread]; rfl)

variable {sha256 : List UInt8 → Digest} {L : PathLibrary}

theorem reviewFromDict_json (o : Option (ArticleNumberingReview L)) :
    reviewFromDict L (optionJson (reviewJson L) o) = .ok o := by
  cases o with
  | none => rfl
  | some r =>
    show (objectOf (reviewJson L r) _ >>= _) = _
    rw [reviewJson,objectOf_own (by rfl),ok_bind]
    simp only [reviewFields,field,List.lookup_cons,intOf,stringOf]
    show (postInit (articleNumberingReviewChecks L) r.value >>= _) = _
    rw [postInit_value]
    rfl

theorem selectionFromDict_json (s : ReleaseSelection L) :
    selectionFromDict L (selectionJson L s) = .ok s := by
  have hstring : ∀ o : Option String, optionOf stringOf (optionJson .string o) = some o :=
    fun o => optionOf_json o (fun _ => rfl) (fun _ h => by cases h)
  have hnumber : ∀ o : Option ℤ, optionOf intOf (optionJson .number o) = some o :=
    fun o => optionOf_json o (fun _ => rfl) (fun _ h => by cases h)
  rw [selectionFromDict,selectionJson,objectOf_own (by rfl),ok_bind]
  simpa [selectionFields,field,List.lookup_cons,uuidOf_json,reviewFromDict_json,hstring,hnumber,
    intOf,stringOf,typed,ok_bind] using postInit_value s

theorem identityFromDict_json (r : ReleaseReportIdentity L) :
    identityFromDict L (identityJson L r) = .ok r := by
  rw [identityFromDict,identityJson,objectOf_own (by rfl),ok_bind]
  simpa [identityFields,field,List.lookup_cons,intOf,stringOf,typed,ok_bind] using postInit_value r

theorem entryFromDict_json (e : ReleaseEntry L) :
    entryFromDict L (entryJson L e) = .ok e := by
  rw [entryFromDict,entryJson,objectOf_own (by rfl),ok_bind]
  simpa [field,List.lookup_cons,selectionFromDict_json,intOf,stringOf,typed,
    ok_bind] using postInit_value e

theorem replacementFromDict_json (r : ReleaseReplacement L) :
    replacementFromDict L (replacementJson L r) = .ok r := by
  rw [replacementFromDict,replacementJson,objectOf_own (by rfl),ok_bind]
  simpa [field,List.lookup_cons,entryFromDict_json,ok_bind] using postInit_value r

theorem mapM_json {read : Json → Except String α} (h : ∀ a, read (json a) = .ok a)
    (items : List α) :
    (items.map json).mapM read = .ok items := by
  induction items with
  | nil => rfl
  | cons a items ih =>
    rw [List.map_cons,List.mapM_cons,h,ok_bind,ih,ok_bind]
    rfl

variable (L) in
structure Fits (p : ReleaseSetProvenanceFields L) : Prop where
  reportCount : 1 ≤ p.reports.length ∧ p.reports.length ≤ 256
  entryCount : 1 ≤ p.entries.length ∧ p.entries.length ≤ 20000
  replacementCount : p.replacements.length ≤ 256
  ordered : inOrder p.reports (-1,0) p.entries = true
  sources : (p.entries.map fun e => sourceKey L e.value.selection).Nodup
  replaced : replacementsFit L p.entries [] p.replacements = true
  seen : ∃ seen, seenRows p.reports [] [] (allEntries L p) = some seen ∧
    (seen.length : ℤ) = totalSelections L p.reports

theorem isOk_ok {q : α → Bool} {x : Except String α} (h : isOk q x = true) :
    ∃ a, x = .ok a ∧ q a = true := by
  cases x with
  | error code => cases h
  | ok a => exact ⟨a,rfl,h⟩

theorem provenance_checks (p : ReleaseSetProvenance sha256 L) : Fits L p.value ∧
    selectionDigest sha256 L p.value = .ok p.value.selectionSha256 ∧
    ∃ bytes, canonical (toDict L p.value) = .ok bytes ∧ bytes.length ≤ maxProvenanceBytes := by
  have hall := under_all p.valid
  simp only [List.forall_mem_cons,distinct,decide_eq_true_eq,Option.any_eq_true,beq_iff_eq] at hall
  obtain ⟨-,hreports,hentries,hreplacements,-,-,-,-,hordered,-,hsources,-,hreplaced,hseen,hdigest,
    hsize,-⟩ := hall
  obtain ⟨digest,hok,hdigest⟩ := isOk_ok hdigest
  obtain ⟨bytes,hbytes,hsize⟩ := isOk_ok hsize
  obtain rfl := eq_of_beq hdigest
  exact ⟨⟨hreports,hentries,hreplacements,hordered,hsources,hreplaced,hseen⟩,hok,bytes,hbytes,
    of_decide_eq_true hsize⟩

theorem boundedItems_ok {low high : ℕ} {items : List Json}
    (h : low ≤ items.length ∧ items.length ≤ high) :
    boundedItems low high (.array items) = .ok items := by
  rw [boundedItems,require,if_pos h,ok_bind]

theorem fromDict_toDict (p : ReleaseSetProvenance sha256 L) :
    fromDict sha256 L (toDict L p.value) = .ok p := by
  obtain ⟨hfits,-,bytes,hbytes,hsize⟩ := provenance_checks p
  have hreports : boundedItems 1 256 (.array (p.value.reports.map (identityJson L))) =
      .ok (p.value.reports.map (identityJson L)) :=
    boundedItems_ok (by simpa using hfits.reportCount)
  have hentries : boundedItems 1 20000 (.array (p.value.entries.map (entryJson L))) =
      .ok (p.value.entries.map (entryJson L)) :=
    boundedItems_ok (by simpa using hfits.entryCount)
  have hreplacements : boundedItems 0 256 (.array (p.value.replacements.map (replacementJson L))) =
      .ok (p.value.replacements.map (replacementJson L)) :=
    boundedItems_ok (by simpa using hfits.replacementCount)
  unfold fromDict
  rw [hbytes,toDict,objectOf_own (by rfl),ok_bind]
  simpa [field,List.lookup_cons,stringOf,require,hreports,hentries,hreplacements,hsize,typed,
    ok_bind,mapM_json identityFromDict_json,mapM_json entryFromDict_json,
    mapM_json replacementFromDict_json] using postInit_value p

/-- The order of the reports, and of the rows within a report. -/
def Precedes (reports : List (ReleaseReportIdentity L)) (e f : ReleaseEntry L) : Prop :=
  ∃ i j, reportOrder reports e.value.reportSha256 = some i ∧
    reportOrder reports f.value.reportSha256 = some j ∧
    (i < j ∨ i = j ∧ e.value.row < f.value.row)

theorem before_iff {p q : ℤ × ℤ} : before p q = true ↔ p.1 < q.1 ∨ p.1 = q.1 ∧ p.2 < q.2 := by
  simp [before]

variable {entries : List (ReleaseEntry L)} {reports : List (ReleaseReportIdentity L)}

theorem inOrder_pairwise {last : ℤ × ℤ} (h : inOrder reports last entries = true) :
    (∀ e ∈ entries, ∃ i : ℕ, reportOrder reports e.value.reportSha256 = some i ∧
      before last (i,e.value.row) = true) ∧ entries.Pairwise (Precedes reports) := by
  induction entries generalizing last with
  | nil => exact ⟨fun _ he => absurd he List.not_mem_nil,.nil⟩
  | cons e entries ih =>
    unfold inOrder at h
    cases hi : reportOrder reports e.value.reportSha256 with
    | none =>
      rw [hi] at h
      cases h
    | some i =>
      rw [hi] at h
      obtain ⟨hbefore,hrest⟩ := (Bool.and_eq_true _ _).mp h
      obtain ⟨hlater,hpairwise⟩ := ih hrest
      refine ⟨?_,List.pairwise_cons.mpr ⟨?_,hpairwise⟩⟩
      · intro f hf
        rcases List.mem_cons.mp hf with rfl | hf
        · exact ⟨i,hi,hbefore⟩
        · obtain ⟨j,hj,hij⟩ := hlater f hf
          refine ⟨j,hj,?_⟩
          rw [before_iff] at hbefore hij ⊢
          omega
      · intro f hf
        obtain ⟨j,hj,hij⟩ := hlater f hf
        refine ⟨i,j,hi,hj,?_⟩
        have hij := before_iff.mp hij
        omega

theorem replacementsFit_all {seen : List String} {replacements : List (ReleaseReplacement L)}
    (h : replacementsFit L entries seen replacements = true) :
    ∀ r ∈ replacements, r.value.new ∈ entries := by
  induction replacements generalizing seen with
  | nil => exact fun _ hr => absurd hr List.not_mem_nil
  | cons r replacements ih =>
    simp only [replacementsFit,Bool.and_eq_true,beq_iff_eq] at h
    intro x hx
    rcases List.mem_cons.mp hx with rfl | hx
    · exact List.mem_of_find?_eq_some h.1.2
    · exact ih h.2 x hx

theorem seenRows_some {seen out : List (String × ℤ)} {versions : List UUID}
    (h : seenRows reports seen versions entries = some out) :
    out.length = seen.length+entries.length ∧
    (∀ e ∈ entries, ∃ r ∈ reports, r.value.reportSha256 = e.value.reportSha256 ∧
      e.value.row ≤ r.value.selectionCount) ∧
    (∀ e ∈ entries, entryKey e ∉ seen) ∧ (entries.map entryKey).Nodup ∧
    (∀ e ∈ entries, e.value.selection.value.versionId ∉ versions) ∧
    (entries.map fun e => e.value.selection.value.versionId).Nodup := by
  induction entries generalizing seen versions with
  | nil =>
    obtain rfl := Option.some.inj h
    simp
  | cons e entries ih =>
    unfold seenRows at h
    simp only at h
    split at h
    · rename_i hcond
      obtain ⟨hreport,hkey,hversion⟩ := hcond
      obtain ⟨hlength,hknown,hkeys,hkeysNodup,hversions,hversionsNodup⟩ := ih h
      obtain ⟨r,hr,hrow⟩ := Option.any_eq_true _ _ |>.mp hreport
      have hfound := List.find?_some hr
      simp only [List.contains_eq_mem,decide_eq_false_iff_not] at hkey hversion
      refine ⟨?_,?_,?_,?_,?_,?_⟩
      · rw [hlength,List.length_cons,List.length_cons]
        omega
      · intro f hf
        rcases List.mem_cons.mp hf with rfl | hf
        · exact ⟨r,List.mem_of_find?_eq_some hr,eq_of_beq hfound,of_decide_eq_true hrow⟩
        · exact hknown f hf
      · intro f hf
        rcases List.mem_cons.mp hf with rfl | hf
        · exact hkey
        · exact fun hmem => hkeys f hf (List.mem_cons_of_mem _ hmem)
      · rw [List.map_cons,List.nodup_cons]
        refine ⟨?_,hkeysNodup⟩
        intro hmem
        obtain ⟨f,hf,hsame⟩ := List.mem_map.mp hmem
        exact hkeys f hf (hsame ▸ List.mem_cons_self)
      · intro f hf
        rcases List.mem_cons.mp hf with rfl | hf
        · exact hversion
        · exact fun hmem => hversions f hf (List.mem_cons_of_mem _ hmem)
      · rw [List.map_cons,List.nodup_cons]
        refine ⟨?_,hversionsNodup⟩
        intro hmem
        obtain ⟨f,hf,hsame⟩ := List.mem_map.mp hmem
        exact hversions f hf (hsame ▸ List.mem_cons_self)
    · cases h

/-- Every row of every report, as the key of an entry. -/
def reportRows (reports : List (ReleaseReportIdentity L)) : List (String × ℤ) :=
  reports.flatMap fun r => (List.range r.value.selectionCount.toNat).map fun i : ℕ =>
    (r.value.reportSha256,(i : ℤ)+1)

theorem mem_reportRows {key : String × ℤ} :
    key ∈ reportRows reports ↔ ∃ r ∈ reports, r.value.reportSha256 = key.1 ∧ 1 ≤ key.2 ∧
      key.2 ≤ r.value.selectionCount := by
  obtain ⟨reportSha256,row⟩ := key
  simp only [reportRows,List.mem_flatMap,List.mem_map,List.mem_range,Prod.mk.injEq]
  constructor
  · rintro ⟨r,hr,i,hi,hsha,hrow⟩
    exact ⟨r,hr,hsha,by omega,by omega⟩
  · rintro ⟨r,hr,hsha,hlow,hhigh⟩
    exact ⟨r,hr,(row-1).toNat,by omega,hsha,by omega⟩

theorem reportRows_length (reports : List (ReleaseReportIdentity L)) :
    ((reportRows reports).length : ℤ) = totalSelections L reports := by
  induction reports with
  | nil => rfl
  | cons r reports ih =>
    have hcount : 1 ≤ r.value.selectionCount := by
      have hall := under_all r.valid
      simp only [List.forall_mem_cons,decide_eq_true_eq] at hall
      exact hall.2.2.1.1
    have hrows : reportRows (r::reports) = (List.range r.value.selectionCount.toNat).map
        (fun i : ℕ => (r.value.reportSha256,(i : ℤ)+1))++reportRows reports := rfl
    have htotal : totalSelections L (r::reports) =
        r.value.selectionCount+totalSelections L reports := rfl
    rw [hrows,htotal,List.length_append,List.length_map,List.length_range,← ih]
    omega

theorem rows_perm {seen : List (String × ℤ)} (h : seenRows reports [] [] entries = some seen)
    (hlength : (seen.length : ℤ) = totalSelections L reports) :
    (entries.map entryKey).Perm (reportRows reports) := by
  obtain ⟨hseen,hknown,-,hnodup,-,-⟩ := seenRows_some h
  have hsub : entries.map entryKey ⊆ reportRows reports := by
    intro key hkey
    obtain ⟨e,he,rfl⟩ := List.mem_map.mp hkey
    obtain ⟨r,hr,hsha,hrow⟩ := hknown e he
    have hlow : 1 ≤ e.value.row := by
      have hall := under_all e.valid
      simp only [List.forall_mem_cons,decide_eq_true_eq] at hall
      exact hall.2.1.1
    exact mem_reportRows.mpr ⟨r,hr,hsha,hlow,hrow⟩
  apply (List.subperm_of_subset hnodup hsub).perm_of_length_le
  have htotal := reportRows_length reports
  rw [List.length_map]
  simp only [List.length_nil] at hseen
  omega

/-- The document determines the value, whatever the order of its keys. -/
def Determined {α : Type} (json : α → Json) : Prop :=
  ∀ a b, sorted (json a) = sorted (json b) → a = b

theorem string_determined : Determined Json.string := fun _ _ h => Json.string.inj h

theorem number_determined : Determined Json.number := fun _ _ h => Json.number.inj h

theorem uuid_determined : Determined uuidJson := fun _ _ h =>
  uuidString_inj (String.ofList_inj.mp (Json.string.inj h))

theorem option_determined (h : Determined json) (hnull : ∀ a, sorted (json a) ≠ .null) :
    Determined (optionJson json) := by
  intro a b hab
  cases a with
  | none =>
    cases b with
    | none => rfl
    | some b => exact absurd hab.symm (hnull b)
  | some a =>
    cases b with
    | none => exact absurd hab (hnull a)
    | some b => rw [h a b hab]

theorem array_determined (h : Determined json) :
    Determined fun items : List α => .array (items.map json) := by
  intro items others hsorted
  have hitems : sortedItems (items.map json) = sortedItems (others.map json) :=
    Json.array.inj hsorted
  clear hsorted
  induction items generalizing others with
  | nil =>
    cases others with
    | nil => rfl
    | cons b others => cases hitems
  | cons a items ih =>
    cases others with
    | nil => cases hitems
    | cons b others =>
      obtain ⟨hhead,htail⟩ := List.cons.inj hitems
      rw [h a b hhead,ih others htail]

theorem object_determined {fields others : JsonObject}
    (hkeys : fields.map Prod.fst = others.map Prod.fst) (hnodup : (fields.map Prod.fst).Nodup)
    (h : sorted (.object fields) = sorted (.object others)) :
    fields.map (fun f => sorted f.2) = others.map fun f => sorted f.2 := by
  have hsort : sortFields (sortedFields fields) = sortFields (sortedFields others) :=
    Json.object.inj h
  have hperm : (sortedFields fields).Perm (sortedFields others) := by
    have hleft : (sortFields (sortedFields fields)).Perm (sortedFields fields) :=
      List.perm_insertionSort _ _
    have hright : (sortFields (sortedFields others)).Perm (sortedFields others) :=
      List.perm_insertionSort _ _
    rw [← hsort] at hright
    exact hleft.symm.trans hright
  have hfirst : ∀ l : JsonObject, (sortedFields l).map Prod.fst = l.map Prod.fst := by
    intro l
    rw [sortedFields_eq,List.map_map]
    rfl
  have hsecond : ∀ l : JsonObject, (sortedFields l).map Prod.snd = l.map fun f => sorted f.2 := by
    intro l
    rw [sortedFields_eq,List.map_map]
    rfl
  have hsame : sortedFields fields = sortedFields others := by
    have hlength := hperm.length_eq
    apply List.ext_getElem hlength
    intro i hi hi'
    apply List.inj_on_of_nodup_map (f := Prod.fst) (by rw [hfirst]; exact hnodup)
      (List.getElem_mem hi) (hperm.mem_iff.mpr (List.getElem_mem hi'))
    have hmap : (sortedFields fields).map Prod.fst = (sortedFields others).map Prod.fst := by
      rw [hfirst,hfirst,hkeys]
    have hget := congrArg (fun l : List String => l[i]?) hmap
    simpa [List.getElem?_eq_getElem hi,List.getElem?_eq_getElem hi'] using hget
  rw [← hsecond,← hsecond,hsame]

theorem review_determined : Determined (reviewJson L) := by
  intro a b h
  have hfields := object_determined (by simp only [List.map_cons,List.map_nil]) (by simp) h
  simp only [List.map_cons,List.cons.injEq,sorted,Json.string.injEq,Json.number.injEq] at hfields
  obtain ⟨hfirst,hlast,hreview,hevidence,hsha,-⟩ := hfields
  apply checked_ext
  exact ArticleNumberingReviewFields.ext hfirst hlast hreview hevidence hsha

theorem selection_determined : Determined (selectionJson L) := by
  have htext := option_determined string_determined fun _ h => by cases h
  have hnumber := option_determined number_determined fun _ h => by cases h
  have hreview := option_determined (review_determined (L := L)) fun _ h => by cases h
  intro a b h
  have hfields := object_determined (by simp only [List.map_cons,List.map_nil]) (by simp) h
  simp only [List.map_cons,List.cons.injEq] at hfields
  obtain ⟨hid,href,hsource,hinput,hstructure,hmetadata,harticles,hchunks,hinstrument,hdate,hmode,
    hprovisions,hstatic,hnumbering,-⟩ := hfields
  apply checked_ext
  exact ReleaseSelectionFields.ext (uuid_determined _ _ hid) (string_determined _ _ href)
    (string_determined _ _ hsource) (string_determined _ _ hinput)
    (string_determined _ _ hstructure) (string_determined _ _ hmetadata)
    (number_determined _ _ harticles) (number_determined _ _ hchunks)
    (uuid_determined _ _ hinstrument) (htext _ _ hdate) (string_determined _ _ hmode)
    (hnumber _ _ hprovisions) (htext _ _ hstatic) (hreview _ _ hnumbering)

theorem identity_determined : Determined (identityJson L) := by
  intro a b h
  have hfields := object_determined (by simp only [List.map_cons,List.map_nil]) (by simp) h
  simp only [List.map_cons,List.cons.injEq,sorted,Json.string.injEq,Json.number.injEq] at hfields
  obtain ⟨hpath,hsha,hcount,hdataset,hparser,hchunk,-⟩ := hfields
  apply checked_ext
  exact ReleaseReportIdentityFields.ext hpath hsha hcount hdataset hparser hchunk

theorem entry_determined : Determined (entryJson L) := by
  intro a b h
  have hfields := object_determined (by simp only [List.map_cons,List.map_nil]) (by simp) h
  simp only [List.map_cons,List.cons.injEq] at hfields
  obtain ⟨hsha,hrow,hselection,-⟩ := hfields
  apply checked_ext
  exact ReleaseEntryFields.ext (string_determined _ _ hsha) (number_determined _ _ hrow)
    (selection_determined _ _ hselection)

theorem replacement_determined : Determined (replacementJson L) := by
  intro a b h
  have hfields := object_determined (by simp only [List.map_cons,List.map_nil]) (by simp) h
  simp only [List.map_cons,List.cons.injEq] at hfields
  obtain ⟨hold,hnew,-⟩ := hfields
  apply checked_ext
  exact ReleaseReplacementFields.ext (entry_determined _ _ hold) (entry_determined _ _ hnew)

/-- The reports, the entries and the replacements. -/
def SameSelection (p q : ReleaseSetProvenanceFields L) : Prop :=
  p.reports = q.reports ∧ p.entries = q.entries ∧ p.replacements = q.replacements

theorem document_determined {p q : ReleaseSetProvenanceFields L}
    (h : sorted (selectionDocument L p) = sorted (selectionDocument L q)) :
    SameSelection p q := by
  have hfields := object_determined (by simp only [List.map_cons,List.map_nil]) (by simp) h
  simp only [List.map_cons,List.cons.injEq] at hfields
  obtain ⟨-,hreports,hentries,hreplacements,-⟩ := hfields
  exact ⟨array_determined identity_determined _ _ hreports,
    array_determined entry_determined _ _ hentries,
    array_determined replacement_determined _ _ hreplacements⟩

/-- `sha256` tells the documents of the two selections apart. -/
def NoCollision (sha256 : List UInt8 → Digest) (p q : ReleaseSetProvenanceFields L) : Prop :=
  ∀ a b, canonical (selectionDocument L p) = .ok a → canonical (selectionDocument L q) = .ok b →
    sha256 a = sha256 b → a = b

theorem canonical_ok {value : Json} {bytes : List UInt8} (h : canonical value = .ok bytes) :
    finite value = true ∧ bytes = encode (dumps value) := by
  simp only [canonical,bind_ok,require_ok] at h
  obtain ⟨-,⟨hfinite,-⟩,hbytes⟩ := h
  exact ⟨hfinite,(Except.ok.inj hbytes).symm⟩

theorem digest_determined {p q : ReleaseSetProvenanceFields L} {digest : String}
    (hp : selectionDigest sha256 L p = .ok digest) (hq : selectionDigest sha256 L q = .ok digest)
    (hhash : NoCollision sha256 p q) : SameSelection p q := by
  simp only [selectionDigest,bind_ok] at hp hq
  obtain ⟨a,ha,hap⟩ := hp
  obtain ⟨b,hb,hbq⟩ := hq
  have hhex := (Except.ok.inj hap).trans (Except.ok.inj hbq).symm
  have hab := hhash a b ha hb (hex_inj hhex)
  obtain ⟨hfp,rfl⟩ := canonical_ok ha
  obtain ⟨hfq,rfl⟩ := canonical_ok hb
  exact document_determined (dumps_inj hfp hfq (encode_inj hab))

/-- Every row of a report is an entry or a replaced source, once; a replaced
source points to its entry; nothing is selected twice. -/
structure ReleaseSound (p : ReleaseSetProvenanceFields L) : Prop where
  rows : ∀ r ∈ p.reports, ∀ n, 1 ≤ n → n ≤ r.value.selectionCount →
    ((allEntries L p).map entryKey).count (r.value.reportSha256,n) = 1
  known : ∀ e ∈ allEntries L p, ∃ r ∈ p.reports, r.value.reportSha256 = e.value.reportSha256 ∧
    1 ≤ e.value.row ∧ e.value.row ≤ r.value.selectionCount
  replaced : ∀ x ∈ p.replacements, x.value.new ∈ p.entries ∧ x.value.old ∉ p.entries ∧
    sourceKey L x.value.old.value.selection = sourceKey L x.value.new.value.selection
  versions : ((allEntries L p).map fun e => e.value.selection.value.versionId).Nodup
  sources : (p.entries.map fun e => sourceKey L e.value.selection).Nodup
  ordered : p.entries.Pairwise (Precedes p.reports)

theorem fits_sound {p : ReleaseSetProvenanceFields L} (h : Fits L p) : ReleaseSound p := by
  obtain ⟨seen,hseen,hlength⟩ := h.seen
  have hperm := rows_perm hseen hlength
  obtain ⟨-,-,-,hkeys,-,hversions⟩ := seenRows_some hseen
  constructor
  case rows =>
    intro r hr n hlow hhigh
    apply List.count_eq_one_of_mem hkeys
    exact hperm.mem_iff.mpr (mem_reportRows.mpr ⟨r,hr,rfl,hlow,hhigh⟩)
  case known =>
    intro e he
    exact mem_reportRows.mp (hperm.mem_iff.mp (List.mem_map_of_mem he))
  case replaced =>
    intro x hx
    have hall := under_all x.valid
    simp only [List.forall_mem_cons,beq_iff_eq] at hall
    refine ⟨replacementsFit_all h.replaced x hx,?_,hall.1⟩
    intro hmem
    rw [allEntries,List.map_append,List.nodup_append] at hkeys
    exact hkeys.2.2 _ (List.mem_map_of_mem hmem) _
      (List.mem_map_of_mem (List.mem_map_of_mem hx)) rfl
  case versions => exact hversions
  case sources => exact h.sources
  case ordered => exact (inOrder_pairwise h.ordered).2

/-- A provenance that the constructor accepts is read back from its document, is
sound, and is determined by its digest. -/
theorem provenance_sound (p : ReleaseSetProvenance sha256 L) :
    fromDict sha256 L (toDict L p.value) = .ok p ∧ ReleaseSound p.value ∧
    ∀ q : ReleaseSetProvenance sha256 L, NoCollision sha256 p.value q.value →
      p.value.selectionSha256 = q.value.selectionSha256 → SameSelection p.value q.value := by
  obtain ⟨hfits,hdigest,-⟩ := provenance_checks p
  refine ⟨fromDict_toDict p,fits_sound hfits,?_⟩
  intro q hhash hsame
  obtain ⟨-,hdigest',-⟩ := provenance_checks q
  rw [← hsame] at hdigest'
  exact digest_determined hdigest hdigest' hhash

end LawyerAgent.ReleaseProvenance
