import LawyerAgent.ReleasePartitions
import Mathlib.Data.List.Dedup
import Mathlib.Data.Set.Function

/-!
# Source proofs and their static review

The identity of the file a public version was read from. A review of a
statically recovered file is kept as two flags of the proof: the digest of the
review, and a digest over everything else the proof says.
-/

set_option autoImplicit false

namespace LawyerAgent.SourceProof
open Common CanonicalJson PythonText
open JsonReader ReleaseProvenance
open Outcomes (require require_ok bind_ok)

def staticConverterVersion : String := "binary-word-static-text-v1"

def staticFlags : List String :=
  ["legacy_binary_static_text_recovery","original_format_not_preserved",
   "field_results_static_not_recalculated","header_section_layout_not_preserved",
   "original_layout_and_visibility_not_preserved",
   "images_objects_and_automatic_numbering_not_recovered"]

/-- `_validate_text` -/
def textOk (limit : ℕ) (value : String) : Bool :=
  !(strip value.toList).isEmpty && decide (value.toList.length ≤ limit)

@[ext]
structure ProofFields where
  sourceRef : String
  inputRef : String
  sourceSha256 : Digest
  inputSha256 : Digest
  structureSha256 : Digest
  loaderVersion : String
  parserVersion : String
  converterVersion : Option String
  converterFingerprint : Option String
  recoveryReason : Option String
  qualityFlags : List String

/-- `flag.startswith("static_review_")` -/
def isReview (flag : String) : Bool := "static_review_".toList.isPrefixOf flag.toList

def reviewFlags (flags : List String) : List String := flags.filter isReview

def sortedSet (flags : List String) : List String := flags.dedup.insertionSort (· ≤ ·)

/-- The flags a proof is left with, in order. -/
def settledFlags (p : ProofFields) : List String :=
  sortedSet (p.qualityFlags++
    ((if p.converterVersion = some staticConverterVersion then staticFlags else [])++
      (if p.recoveryReason.isSome then ["original_office_validation_failed"] else [])))

def identityChecks : Checks ProofFields := fun p =>
  [(textOk 4096 p.sourceRef,"invalid_source_proof_source_ref"),
   (textOk 4096 p.inputRef,"invalid_source_proof_input_ref"),
   (textOk 64 p.loaderVersion,"invalid_source_proof_loader_version"),
   (textOk 64 p.parserVersion,"invalid_source_proof_parser_version"),
   (p.converterVersion.isNone == p.converterFingerprint.isNone,
    "invalid_source_proof_conversion_pair"),
   (p.converterVersion.all (textOk 128),"invalid_source_proof_converter_version"),
   (p.converterFingerprint.all fun text => isHex 64 text.toList,
    "invalid_source_proof_converter_fingerprint"),
   (decide (p.sourceRef = p.inputRef ∧ p.sourceSha256 = p.inputSha256) ||
      p.converterVersion.isSome,"source_proof_conversion_required"),
   (p.recoveryReason.all fun reason => decide (reason = "office_validation_failed" ∧
      p.converterVersion = some staticConverterVersion),"invalid_source_proof_recovery_reason")]

def flagChecks : Checks ProofFields := fun p =>
  [(decide (p.qualityFlags.length ≤ 64),"invalid_source_proof_quality_flags"),
   (p.qualityFlags.all (textOk 128),"invalid_source_proof_quality_flag"),
   (decide (reviewFlags p.qualityFlags).Nodup,"invalid_source_proof_quality_flags"),
   (decide ((settledFlags p).length ≤ 64),"invalid_source_proof_quality_flags")]

def sourceProofChecks : Checks ProofFields := fun p => identityChecks p++flagChecks p

def settle (p : ProofFields) : ProofFields := { p with qualityFlags := settledFlags p }

/-- A checked proof; its flags are settled. -/
structure LegalSourceProof where
  value : ProofFields
  valid : firstError (sourceProofChecks value) = none
  settled : settledFlags value = value.qualityFlags

variable {flag digest : String} {p : ProofFields} {proof reviewed : LegalSourceProof}

theorem mem_sortedSet {flags : List String} :
    flag ∈ sortedSet flags ↔ flag ∈ flags := by
  rw [sortedSet,List.mem_insertionSort,List.mem_dedup]

theorem sortedSet_nodup (flags : List String) : (sortedSet flags).Nodup :=
  (List.perm_insertionSort _ _).nodup_iff.mpr flags.nodup_dedup

theorem sortedSet_ordered (flags : List String) : (sortedSet flags).Pairwise (· ≤ ·) := by
  have : Std.Total fun a b : String => a ≤ b := ⟨String.le_total⟩
  have : IsTrans String fun a b => a ≤ b := ⟨fun a b c => String.le_trans⟩
  exact List.pairwise_insertionSort _ _

theorem sortedSet_ext {flags others : List String} (h : ∀ flag, flag ∈ flags ↔ flag ∈ others) :
    sortedSet flags = sortedSet others := by
  have hperm : (sortedSet flags).Perm (sortedSet others) := by
    apply (List.perm_ext_iff_of_nodup (sortedSet_nodup flags) (sortedSet_nodup others)).mpr
    intro flag
    rw [mem_sortedSet,mem_sortedSet,h flag]
  apply hperm.eq_of_pairwise _ (sortedSet_ordered flags) (sortedSet_ordered others)
  exact fun a b _ _ hab hba => String.le_antisymm hab hba

theorem mem_settledFlags : flag ∈ settledFlags p ↔
    flag ∈ p.qualityFlags ∨
      (p.converterVersion = some staticConverterVersion ∧ flag ∈ staticFlags) ∨
      (p.recoveryReason.isSome = true ∧ flag = "original_office_validation_failed") := by
  rw [settledFlags,mem_sortedSet,List.mem_append,List.mem_append]
  by_cases hstatic : p.converterVersion = some staticConverterVersion
  · by_cases hreason : p.recoveryReason.isSome = true
    · simp [hstatic,hreason]
    · simp [hstatic,hreason]
  · by_cases hreason : p.recoveryReason.isSome = true
    · simp [hstatic,hreason]
    · simp [hstatic,hreason]

theorem settledFlags_ext {p q : ProofFields}
    (h : ∀ flag, flag ∈ settledFlags p ↔ flag ∈ settledFlags q) :
    settledFlags p = settledFlags q := by
  apply sortedSet_ext
  intro flag
  have hflag := h flag
  rw [settledFlags,settledFlags,mem_sortedSet,mem_sortedSet] at hflag
  exact hflag

theorem settledFlags_settle (p : ProofFields) : settledFlags (settle p) = settledFlags p := by
  apply settledFlags_ext
  intro flag
  rw [mem_settledFlags (p := settle p)]
  simp only [settle]
  rw [mem_settledFlags]
  tauto

theorem settle_flags (p : ProofFields) : (settle p).qualityFlags = settledFlags p := rfl

theorem staticFlags_ok : (staticFlags.all (textOk 128) &&
    textOk 128 "original_office_validation_failed") = true := by decide

/-- A proof stays valid when its flags are settled. -/
theorem settle_valid (h : firstError (sourceProofChecks p) = none) :
    firstError (sourceProofChecks (settle p)) = none := by
  have hidentity : identityChecks (settle p) = identityChecks p := rfl
  have hall := fun c (hc : c ∈ sourceProofChecks p) => firstError_none h hc
  rw [sourceProofChecks,List.forall_mem_append] at hall
  obtain ⟨hfirst,hflags⟩ := hall
  simp only [flagChecks,List.forall_mem_cons,List.all_eq_true,decide_eq_true_eq] at hflags
  obtain ⟨-,htext,-,hbound,-⟩ := hflags
  apply firstError_all
  rw [sourceProofChecks,List.forall_mem_append]
  constructor
  · rw [hidentity]
    exact hfirst
  · simp only [flagChecks,List.forall_mem_cons,List.all_eq_true,decide_eq_true_eq,
      settledFlags_settle,settle_flags]
    have hstatic := (Bool.and_eq_true _ _).mp staticFlags_ok
    refine ⟨decide_eq_true hbound,?_,decide_eq_true ((sortedSet_nodup _).filter _),
      hbound,by simp⟩
    intro flag hflag
    rcases mem_settledFlags.mp hflag with hmem | ⟨-,hmem⟩ | ⟨-,rfl⟩
    · exact htext flag hmem
    · exact List.all_eq_true.mp hstatic.1 flag hmem
    · exact hstatic.2

/-- `LegalSourceProof(...)` -/
def make (p : ProofFields) : Except String LegalSourceProof :=
  match h : firstError (sourceProofChecks p) with
  | none => .ok ⟨settle p,settle_valid h,settledFlags_settle p⟩
  | some message => .error message

theorem make_ok (h : make p = .ok proof) :
    firstError (sourceProofChecks p) = none ∧ proof.value = settle p := by
  rw [make] at h
  split at h
  · rename_i hnone
    cases h
    exact ⟨hnone,rfl⟩
  · cases h

theorem make_of (h : firstError (sourceProofChecks p) = none) :
    make p = .ok ⟨settle p,settle_valid h,settledFlags_settle p⟩ := by
  rw [make]
  split
  · rfl
  · rename_i message hsome
    rw [h] at hsome
    cases hsome

variable (sha256 : List UInt8 → Digest)

def reviewDocument (p : ProofFields) (digest : String) : Json :=
  .object
    [("source_ref",.string p.sourceRef),
     ("input_ref",.string p.inputRef),
     ("source_sha256",.string (hex p.sourceSha256)),
     ("input_sha256",.string (hex p.inputSha256)),
     ("structure_sha256",.string (hex p.structureSha256)),
     ("loader_version",.string p.loaderVersion),
     ("parser_version",.string p.parserVersion),
     ("converter_version",optionJson .string p.converterVersion),
     ("converter_fingerprint",optionJson .string p.converterFingerprint),
     ("recovery_reason",optionJson .string p.recoveryReason),
     ("quality_flags",.array ((p.qualityFlags.filter fun flag => !isReview flag).map .string)),
     ("review_sha256",.string digest)]

def reviewBinding (p : ProofFields) (digest : String) : String :=
  hex (digestJson sha256 (reviewDocument p digest))

def reviewPair (p : ProofFields) (digest : String) : List String :=
  ["static_review_sha256:"++digest,"static_review_binding:"++reviewBinding sha256 p digest]

def reviewedStaticProof (proof : LegalSourceProof) (digest : String) :
    Except String LegalSourceProof := do
  require (proof.value.converterVersion = some staticConverterVersion ∧
    isHex 64 digest.toList = true ∧ proof.value.qualityFlags.any isReview = false)
    "invalid_static_review"
  make { proof.value with
    qualityFlags := proof.value.qualityFlags++reviewPair sha256 proof.value digest }

def staticReviewMatches (proof : LegalSourceProof) (digest : Option String) : Bool :=
  match digest with
  | none => false
  | some digest =>
    let flags := reviewFlags proof.value.qualityFlags
    let pair := reviewPair sha256 proof.value digest
    decide (proof.value.converterVersion = some staticConverterVersion) &&
      isHex 64 digest.toList && decide (flags ⊆ pair ∧ pair ⊆ flags)

def reviewedFields (p : ProofFields) : ProofFields :=
  { p with qualityFlags := p.qualityFlags.filter fun flag => !isReview flag }

theorem finite_option (o : Option String) : finite (optionJson .string o) = true := by
  cases o with
  | none => rfl
  | some text => rfl

theorem finite_strings (texts : List String) : finiteItems (texts.map .string) = true := by
  induction texts with
  | nil => rfl
  | cons text texts ih =>
    rw [List.map_cons,finiteItems,ih]
    rfl

theorem reviewDocument_finite (p : ProofFields) (digest : String) :
    finite (reviewDocument p digest) = true := by
  rw [reviewDocument,finite,finiteFields_iff]
  simp only [List.forall_mem_cons,finite_option]
  exact ⟨rfl,rfl,rfl,rfl,rfl,rfl,rfl,trivial,trivial,trivial,finite_strings _,rfl,by simp⟩

theorem reviewDocument_inj {p q : ProofFields} {digest other : String}
    (h : sorted (reviewDocument p digest) = sorted (reviewDocument q other)) :
    reviewedFields p = reviewedFields q ∧ digest = other := by
  have htext := option_determined string_determined fun _ h => by cases h
  have hflags := array_determined string_determined
  have hfields := object_determined (by simp only [List.map_cons,List.map_nil])
    (by simp only [List.map_cons,List.map_nil]; decide) h
  simp only [List.map_cons,List.cons.injEq] at hfields
  obtain ⟨hsource,hinput,hsourceSha,hinputSha,hstructure,hloader,hparser,hversion,hfingerprint,
    hreason,hquality,hdigest,-⟩ := hfields
  constructor
  · exact ProofFields.ext (string_determined _ _ hsource) (string_determined _ _ hinput)
      (hex_inj (string_determined _ _ hsourceSha)) (hex_inj (string_determined _ _ hinputSha))
      (hex_inj (string_determined _ _ hstructure)) (string_determined _ _ hloader)
      (string_determined _ _ hparser) (htext _ _ hversion) (htext _ _ hfingerprint)
      (htext _ _ hreason) (hflags _ _ hquality)
  · exact string_determined _ _ hdigest

theorem isReview_sha256 (text : String) : isReview ("static_review_sha256:"++text) = true := by
  rw [isReview,List.isPrefixOf_iff_prefix,String.toList_append]
  have hprefix : "static_review_".toList <+: "static_review_sha256:".toList := by decide
  exact hprefix.trans (List.prefix_append _ _)

theorem isReview_binding (text : String) : isReview ("static_review_binding:"++text) = true := by
  rw [isReview,List.isPrefixOf_iff_prefix,String.toList_append]
  have hprefix : "static_review_".toList <+: "static_review_binding:".toList := by decide
  exact hprefix.trans (List.prefix_append _ _)

theorem sha256_ne_binding (text other : String) :
    "static_review_sha256:"++text ≠ "static_review_binding:"++other := by
  intro h
  have hlists := congrArg String.toList h
  rw [String.toList_append,String.toList_append] at hlists
  simp at hlists

theorem string_append_inj {before text other : String} (h : before++text = before++other) :
    text = other := by
  have hlists := congrArg String.toList h
  rw [String.toList_append,String.toList_append] at hlists
  exact String.toList_injective (List.append_cancel_left hlists)

theorem reviewPair_review (p : ProofFields) (digest : String) :
    ∀ flag ∈ reviewPair sha256 p digest, isReview flag = true := by
  simp only [reviewPair,List.forall_mem_cons]
  exact ⟨isReview_sha256 _,isReview_binding _,by simp⟩

theorem reviewPair_inj {p q : ProofFields} {digest other : String}
    (hinj : Set.InjOn sha256 {encode (dumps (reviewDocument p digest)),
      encode (dumps (reviewDocument q other))})
    (h : reviewPair sha256 q other ⊆ reviewPair sha256 p digest) :
    other = digest ∧ reviewedFields q = reviewedFields p := by
  rw [reviewPair,reviewPair,List.cons_subset,List.cons_subset] at h
  obtain ⟨-,hbinding,-⟩ := h
  have hcode : reviewBinding sha256 q other = reviewBinding sha256 p digest := by
    rcases List.mem_cons.mp hbinding with hsame | hmem
    · exact absurd hsame.symm (sha256_ne_binding _ _)
    · exact string_append_inj (List.mem_singleton.mp hmem)
  have htext : encode (dumps (reviewDocument q other)) = encode (dumps (reviewDocument p digest)) :=
    hinj (Set.mem_insert_of_mem _ rfl) (Set.mem_insert _ _) (hex_inj hcode)
  have hsorted := dumps_inj (reviewDocument_finite q other) (reviewDocument_finite p digest)
    (encode_inj htext)
  have hsame := reviewDocument_inj hsorted
  exact ⟨hsame.2,hsame.1⟩

def withReview (p : ProofFields) (digest : String) : ProofFields :=
  { p with qualityFlags := p.qualityFlags++reviewPair sha256 p digest }

def Reviewable (proof : LegalSourceProof) : Prop :=
  proof.value.converterVersion = some staticConverterVersion ∧
    proof.value.qualityFlags.any isReview = false ∧ proof.value.qualityFlags.length ≤ 62

theorem flags_nodup (proof : LegalSourceProof) : proof.value.qualityFlags.Nodup := by
  rw [← proof.settled]
  exact sortedSet_nodup _

theorem flags_ordered (proof : LegalSourceProof) :
    proof.value.qualityFlags.Pairwise (· ≤ ·) := by
  rw [← proof.settled]
  exact sortedSet_ordered _

theorem not_review (h : proof.value.qualityFlags.any isReview = false)
    (hflag : flag ∈ proof.value.qualityFlags) :
    isReview flag = false := by
  rw [List.any_eq_false] at h
  exact eq_false_of_ne_true (h flag hflag)

theorem mem_withReview :
    flag ∈ settledFlags (withReview sha256 proof.value digest) ↔
      flag ∈ proof.value.qualityFlags++reviewPair sha256 proof.value digest := by
  have hsettled : flag ∈ settledFlags proof.value ↔ flag ∈ proof.value.qualityFlags := by
    rw [proof.settled]
  rw [mem_settledFlags] at hsettled
  rw [mem_settledFlags]
  simp only [withReview,List.mem_append]
  tauto

theorem appended_nodup (h : proof.value.qualityFlags.any isReview = false) :
    (proof.value.qualityFlags++reviewPair sha256 proof.value digest).Nodup := by
  apply List.Nodup.append (flags_nodup proof)
  · rw [reviewPair,List.nodup_cons]
    constructor
    · intro hmem
      exact sha256_ne_binding _ _ (List.mem_singleton.mp hmem)
    · exact List.nodup_singleton _
  · intro flag hflag hpair
    have hreview := reviewPair_review sha256 _ _ flag hpair
    rw [not_review h hflag] at hreview
    cases hreview

theorem withReview_length (h : proof.value.qualityFlags.any isReview = false) :
    (settledFlags (withReview sha256 proof.value digest)).length =
      proof.value.qualityFlags.length+2 := by
  have hperm : (settledFlags (withReview sha256 proof.value digest)).Perm
      (proof.value.qualityFlags++reviewPair sha256 proof.value digest) := by
    apply (List.perm_ext_iff_of_nodup (sortedSet_nodup _) (appended_nodup sha256 h)).mpr
    exact fun flag => mem_withReview sha256
  rw [hperm.length_eq,List.length_append]
  rfl

theorem hex_length (d : Digest) : (hex d).toList.length = 64 := by
  have hhex := hex_isHex d
  rw [isHex,Bool.and_eq_true] at hhex
  exact eq_of_beq hhex.1

theorem strip_nonempty {text : List Char} {c : Char} (h : c ∈ text) (hc : isSpace c = false) :
    strip text ≠ [] := by
  intro hempty
  obtain ⟨before,after,hsplit,hbefore,hafter⟩ := strip_split text
  rw [hempty,List.nil_append] at hsplit
  have hspace : isSpace c = true := by
    rw [hsplit] at h
    rcases List.mem_append.mp h with h | h
    · exact hbefore c h
    · exact hafter c h
  rw [hc] at hspace
  cases hspace

theorem headed_ok {head digest : String} (hhead : 's' ∈ head.toList)
    (hshort : head.toList.length ≤ 64) (hlength : digest.toList.length = 64) :
    textOk 128 (head++digest) = true := by
  rw [textOk,Bool.and_eq_true,decide_eq_true_eq,String.toList_append]
  constructor
  · have hne : strip (head.toList++digest.toList) ≠ [] :=
      strip_nonempty (List.mem_append_left _ hhead) (by decide)
    rw [List.isEmpty_eq_false_iff.mpr hne]
    rfl
  · rw [List.length_append]
    omega

theorem reviewPair_ok (p : ProofFields) (h : isHex 64 digest.toList = true) :
    ∀ flag ∈ reviewPair sha256 p digest, textOk 128 flag = true := by
  rw [isHex,Bool.and_eq_true] at h
  simp only [reviewPair,List.forall_mem_cons]
  exact ⟨headed_ok (by decide) (by decide) (eq_of_beq h.1),
    headed_ok (by decide) (by decide) (hex_length _),by simp⟩

theorem withReview_valid (hproof : Reviewable proof) (hdigest : isHex 64 digest.toList = true) :
    firstError (sourceProofChecks (withReview sha256 proof.value digest)) = none := by
  obtain ⟨-,hplain,hbound⟩ := hproof
  have hidentity : identityChecks (withReview sha256 proof.value digest) =
      identityChecks proof.value := rfl
  have hall := fun c (hc : c ∈ sourceProofChecks proof.value) => firstError_none proof.valid hc
  rw [sourceProofChecks,List.forall_mem_append] at hall
  obtain ⟨hfirst,hflags⟩ := hall
  simp only [flagChecks,List.forall_mem_cons] at hflags
  apply firstError_all
  rw [sourceProofChecks,List.forall_mem_append,hidentity]
  apply And.intro hfirst
  simp only [flagChecks,List.forall_mem_cons,withReview_length sha256 hplain]
  have hlength : (proof.value.qualityFlags++reviewPair sha256 proof.value digest).length =
      proof.value.qualityFlags.length+2 := List.length_append
  have htexts : (proof.value.qualityFlags++reviewPair sha256 proof.value digest).all
      (textOk 128) = true := by
    rw [List.all_append,hflags.2.1,Bool.true_and]
    exact List.all_eq_true.mpr (reviewPair_ok sha256 _ hdigest)
  refine ⟨decide_eq_true ?_,htexts,decide_eq_true ((appended_nodup sha256 hplain).filter _),
    decide_eq_true (by omega),by simp⟩
  rw [withReview,hlength]
  omega

theorem reviewed_iff (proof : LegalSourceProof) (hdigest : isHex 64 digest.toList = true) :
    (∃ reviewed, reviewedStaticProof sha256 proof digest = .ok reviewed) ↔ Reviewable proof := by
  constructor
  · intro h
    obtain ⟨reviewed,hreviewed⟩ := h
    rw [reviewedStaticProof] at hreviewed
    obtain ⟨_,hrequire,hmake⟩ := bind_ok.mp hreviewed
    obtain ⟨hstatic,-,hplain⟩ := require_ok.mp hrequire
    obtain ⟨hvalid,-⟩ := make_ok hmake
    have hall := fun c hc => firstError_none hvalid (c := c) hc
    rw [sourceProofChecks,List.forall_mem_append] at hall
    have hbound := hall.2
    simp only [flagChecks,List.forall_mem_cons,decide_eq_true_eq,List.length_append] at hbound
    have hpair : (reviewPair sha256 proof.value digest).length = 2 := rfl
    exact ⟨hstatic,hplain,by omega⟩
  · intro hproof
    refine ⟨_,bind_ok.mpr ⟨(),require_ok.mpr ⟨hproof.1,hdigest,hproof.2.1⟩,
      make_of (withReview_valid sha256 hproof hdigest)⟩⟩

theorem reviewed_ok (h : reviewedStaticProof sha256 proof digest = .ok reviewed) :
    Reviewable proof ∧ isHex 64 digest.toList = true ∧
      reviewed.value = settle (withReview sha256 proof.value digest) := by
  have h' := h
  rw [reviewedStaticProof] at h'
  obtain ⟨_,hrequire,hmake⟩ := bind_ok.mp h'
  obtain ⟨-,hdigest,-⟩ := require_ok.mp hrequire
  exact ⟨(reviewed_iff sha256 proof hdigest).mp ⟨reviewed,h⟩,hdigest,(make_ok hmake).2⟩

theorem reviewed_fields (h : reviewedStaticProof sha256 proof digest = .ok reviewed) :
    reviewedFields reviewed.value = proof.value := by
  obtain ⟨⟨-,hplain,-⟩,-,hvalue⟩ := reviewed_ok sha256 h
  have hmem : ∀ flag, flag ∈ reviewed.value.qualityFlags.filter (fun flag => !isReview flag) ↔
      flag ∈ proof.value.qualityFlags := by
    intro flag
    rw [List.mem_filter,hvalue,settle_flags,mem_withReview sha256,List.mem_append]
    constructor
    · intro hflag
      obtain ⟨hflag | hpair,hnot⟩ := hflag
      · exact hflag
      · rw [reviewPair_review sha256 _ _ flag hpair] at hnot
        cases hnot
    · intro hflag
      rw [not_review hplain hflag]
      exact ⟨.inl hflag,rfl⟩
  have hflags : reviewed.value.qualityFlags.filter (fun flag => !isReview flag) =
      proof.value.qualityFlags := by
    have hperm := (List.perm_ext_iff_of_nodup ((flags_nodup reviewed).filter _)
      (flags_nodup proof)).mpr hmem
    apply hperm.eq_of_pairwise _ ((flags_ordered reviewed).filter _) (flags_ordered proof)
    exact fun a b _ _ hab hba => String.le_antisymm hab hba
  rw [reviewedFields,hflags,hvalue]
  rfl

theorem reviewed_flags (h : reviewedStaticProof sha256 proof digest = .ok reviewed)
    (flag : String) :
    flag ∈ reviewFlags reviewed.value.qualityFlags ↔
      flag ∈ reviewPair sha256 proof.value digest := by
  obtain ⟨⟨-,hplain,-⟩,-,hvalue⟩ := reviewed_ok sha256 h
  rw [reviewFlags,List.mem_filter,hvalue,settle_flags,mem_withReview sha256,List.mem_append]
  constructor
  · intro hflag
    obtain ⟨hflag | hpair,hreview⟩ := hflag
    · rw [not_review hplain hflag] at hreview
      cases hreview
    · exact hpair
  · exact fun hpair => ⟨.inr hpair,reviewPair_review sha256 _ _ flag hpair⟩

/-- `sha256(raw).hexdigest()` -/
def hexdigest (document : List UInt8) : String := hex (sha256 document)

def reviewText (proof : LegalSourceProof) (digest : String) : List UInt8 :=
  encode (dumps (reviewDocument proof.value digest))

theorem hexdigest_hex (document : List UInt8) :
    isHex 64 (hexdigest sha256 document).toList = true := hex_isHex _

theorem reviewDocument_fields {p q : ProofFields} (h : reviewedFields p = reviewedFields q)
    (digest : String) : reviewDocument p digest = reviewDocument q digest := by
  have hfields : ∀ p, reviewDocument p digest =
      reviewDocument (reviewedFields p) digest := by
    intro p
    simp only [reviewDocument,reviewedFields,List.filter_filter,Bool.and_self]
  rw [hfields p,hfields q,h]

theorem reviewed_idem (proof : LegalSourceProof)
    (h : proof.value.qualityFlags.any isReview = false) :
    reviewedFields proof.value = proof.value := by
  have hflags : proof.value.qualityFlags.filter (fun flag => !isReview flag) =
      proof.value.qualityFlags := by
    apply List.filter_eq_self.mpr
    intro flag hflag
    rw [not_review h hflag]
    rfl
  rw [reviewedFields,hflags]

theorem reviewed_pair (h : reviewedStaticProof sha256 proof digest = .ok reviewed) :
    reviewPair sha256 reviewed.value digest = reviewPair sha256 proof.value digest := by
  have hplain := (reviewed_ok sha256 h).1.2.1
  have hsame : reviewedFields reviewed.value = reviewedFields proof.value := by
    rw [reviewed_fields sha256 h,reviewed_idem proof hplain]
  rw [reviewPair,reviewPair,reviewBinding,reviewBinding,reviewDocument_fields hsame]

theorem matches_some :
    staticReviewMatches sha256 proof (some digest) = true ↔
      proof.value.converterVersion = some staticConverterVersion ∧ isHex 64 digest.toList = true ∧
        ∀ flag, flag ∈ reviewFlags proof.value.qualityFlags ↔
          flag ∈ reviewPair sha256 proof.value digest := by
  rw [staticReviewMatches,Bool.and_eq_true,Bool.and_eq_true,decide_eq_true_eq,decide_eq_true_eq,
    and_assoc]
  constructor
  · intro h
    exact ⟨h.1,h.2.1,fun flag => ⟨fun hflag => h.2.2.1 hflag,fun hpair => h.2.2.2 hpair⟩⟩
  · intro h
    exact ⟨h.1,h.2.1,fun flag => (h.2.2 flag).mp,fun flag => (h.2.2 flag).mpr⟩

/-- A static review is valid for one document and one content of the proof. -/
theorem review_bound (proof : LegalSourceProof) (document : List UInt8) :
    ((∃ reviewed, reviewedStaticProof sha256 proof (hexdigest sha256 document) = .ok reviewed) ↔
      Reviewable proof) ∧
    ∀ reviewed, reviewedStaticProof sha256 proof (hexdigest sha256 document) = .ok reviewed →
      staticReviewMatches sha256 reviewed (some (hexdigest sha256 document)) = true ∧
      ∀ (other : LegalSourceProof) (document' : List UInt8),
        reviewFlags other.value.qualityFlags = reviewFlags reviewed.value.qualityFlags →
        Set.InjOn sha256 {document,document',reviewText proof (hexdigest sha256 document),
          reviewText other (hexdigest sha256 document')} →
        staticReviewMatches sha256 other (some (hexdigest sha256 document')) = true →
        document' = document ∧ reviewedFields other.value = proof.value := by
  apply And.intro (reviewed_iff sha256 proof (hexdigest_hex sha256 document))
  intro reviewed hreviewed
  obtain ⟨hproof,hdigest,hvalue⟩ := reviewed_ok sha256 hreviewed
  have hstatic : reviewed.value.converterVersion = some staticConverterVersion := by
    rw [hvalue]
    exact hproof.1
  constructor
  · apply (matches_some sha256).mpr
    refine ⟨hstatic,hdigest,?_⟩
    intro flag
    rw [reviewed_pair sha256 hreviewed]
    exact reviewed_flags sha256 hreviewed flag
  · intro other document' hflags hinj hmatches
    obtain ⟨-,-,hother⟩ := (matches_some sha256).mp hmatches
    have hsubset : reviewPair sha256 other.value (hexdigest sha256 document') ⊆
        reviewPair sha256 proof.value (hexdigest sha256 document) := by
      intro flag hflag
      have hmem := (hother flag).mpr hflag
      rw [hflags] at hmem
      exact (reviewed_flags sha256 hreviewed flag).mp hmem
    have htexts : Set.InjOn sha256 {reviewText proof (hexdigest sha256 document),
        reviewText other (hexdigest sha256 document')} :=
      hinj.mono fun text htext => Set.mem_insert_of_mem _ (Set.mem_insert_of_mem _ htext)
    obtain ⟨hhex,hsame⟩ := reviewPair_inj sha256 htexts hsubset
    constructor
    · exact hinj (Set.mem_insert_of_mem _ (Set.mem_insert _ _)) (Set.mem_insert _ _) (hex_inj hhex)
    · rw [hsame,reviewed_idem proof hproof.2.1]

def unconverted : ProofFields where
  sourceRef := "file:///law.docx"
  inputRef := "file:///law.docx"
  sourceSha256 := 1
  inputSha256 := 1
  structureSha256 := 2
  loaderVersion := "loader"
  parserVersion := "parser"
  converterVersion := none
  converterFingerprint := none
  recoveryReason := none
  qualityFlags := []

def recovered : ProofFields :=
  { unconverted with
    sourceRef := "file:///law.doc"
    sourceSha256 := 3
    converterVersion := some staticConverterVersion
    converterFingerprint :=
      some "dddddddddddddddddddddddddddddddddddddddddddddddddddddddddddddddd"
    recoveryReason := some "office_validation_failed" }

theorem samples_valid : firstError (sourceProofChecks unconverted) = none ∧
    firstError (sourceProofChecks recovered) = none := by decide

def sampleProof (p : ProofFields) (h : firstError (sourceProofChecks p) = none) :
    LegalSourceProof := ⟨settle p,settle_valid h,settledFlags_settle p⟩

theorem recovered_reviewable : Reviewable (sampleProof recovered samples_valid.2) := by
  refine ⟨rfl,?_,?_⟩
  · decide
  · decide

/-- Told apart are the empty document and the others. -/
def lengthHash (bytes : List UInt8) : Digest := if bytes.isEmpty then 0 else 1

theorem reviewText_ne (proof : LegalSourceProof) (digest : String) :
    reviewText proof digest ≠ [] := by
  intro hempty
  have hlength := encode_length (dumps (reviewDocument proof.value digest))
  rw [reviewText] at hempty
  rw [hempty,reviewDocument,dumps,List.length_append,List.length_cons,List.length_nil] at hlength
  omega

theorem lengthHash_inj {texts : Set (List UInt8)} {text : List UInt8}
    (h : ∀ t ∈ texts, t = [] ∨ t = text) (hne : text ≠ []) : Set.InjOn lengthHash texts := by
  intro s hs t ht hst
  have hnil : lengthHash [] ≠ lengthHash text := by
    rw [lengthHash,lengthHash,List.isEmpty_eq_false_iff.mpr hne]
    decide
  rcases h s hs with rfl | rfl
  · rcases h t ht with rfl | rfl
    · rfl
    · exact absurd hst hnil
  · rcases h t ht with rfl | rfl
    · exact absurd hst.symm hnil
    · rfl

theorem recovered_bound : ∃ reviewed,
    reviewedStaticProof lengthHash (sampleProof recovered samples_valid.2)
      (hexdigest lengthHash []) = .ok reviewed ∧
    staticReviewMatches lengthHash reviewed (some (hexdigest lengthHash [])) = true ∧
    reviewedFields reviewed.value = (sampleProof recovered samples_valid.2).value := by
  have hbound := review_bound lengthHash (sampleProof recovered samples_valid.2) []
  obtain ⟨reviewed,hreviewed⟩ := hbound.1.mpr recovered_reviewable
  obtain ⟨hmatches,hunique⟩ := hbound.2 reviewed hreviewed
  have htext : reviewText reviewed (hexdigest lengthHash []) =
      reviewText (sampleProof recovered samples_valid.2) (hexdigest lengthHash []) := by
    have hsame : reviewedFields reviewed.value =
        reviewedFields (sampleProof recovered samples_valid.2).value := by
      rw [reviewed_fields lengthHash hreviewed,reviewed_idem _ recovered_reviewable.2.1]
    rw [reviewText,reviewText,reviewDocument_fields hsame]
  have hinj : Set.InjOn lengthHash {[],[],
      reviewText (sampleProof recovered samples_valid.2) (hexdigest lengthHash []),
      reviewText reviewed (hexdigest lengthHash [])} := by
    rw [htext]
    apply lengthHash_inj _ (reviewText_ne (sampleProof recovered samples_valid.2)
      (hexdigest lengthHash []))
    intro text hmem
    simpa only [Set.mem_insert_iff,Set.mem_singleton_iff,or_self,← or_assoc] using hmem
  exact ⟨reviewed,hreviewed,hmatches,(hunique reviewed [] rfl hinj hmatches).2⟩

/-- A proof that was not recovered statically has no review to be added. -/
theorem unconverted_unreviewed : ¬ ∀ (sha256 : List UInt8 → Digest) (proof : LegalSourceProof)
    (document : List UInt8), ∃ reviewed,
      reviewedStaticProof sha256 proof (hexdigest sha256 document) = .ok reviewed ∧
      staticReviewMatches sha256 reviewed (some (hexdigest sha256 document)) = true := by
  intro h
  obtain ⟨reviewed,hreviewed,-⟩ := h lengthHash (sampleProof unconverted samples_valid.1) []
  have hstatic := (reviewed_ok lengthHash hreviewed).1.1
  cases hstatic

end LawyerAgent.SourceProof
