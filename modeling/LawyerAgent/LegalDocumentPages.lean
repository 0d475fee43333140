import LawyerAgent.LegalDocuments

/-!
# The pages of a legal document

A page goes forward by at least one paragraph and names the offset behind its
last one, so that following the cursors delivers the paragraphs in order. The
reader refuses a paragraph that no page can hold.
-/

set_option autoImplicit false

namespace LawyerAgent.LegalDocuments
open Common CanonicalJson PythonText
open AttuPreparation (get jsonEqual hexdigest)
open AttuImport (splitLines)
open Outcomes (require require_ok bind_ok mapM_ok)
open Paging

variable {L : Library} {store : Store} {disk : Disk} {documentId : Text} {document : Loaded}
  {paragraph : Text}

theorem splitLines_length (line : List UInt8) (afterReturn : Bool) (bytes : List UInt8) :
    (splitLines line afterReturn bytes).length ≤
      bytes.length+(if line = [] then 0 else 1) := by
  fun_induction splitLines line afterReturn bytes with
  | case1 => simp
  | case2 line _ hline => simp [hline]
  | case3 line rest ih =>
    simp only [if_true,List.length_cons] at ih ⊢
    omega
  | case4 line rest _ _ ih =>
    simp only [if_true,List.length_cons] at ih ⊢
    omega
  | case5 line _ rest _ ih =>
    simp only [if_true,List.length_cons] at ih ⊢
    omega
  | case6 line _ b rest _ _ ih =>
    rw [if_neg (by simp)] at ih
    rw [List.length_cons]
    omega

theorem regularFile_le {file : Option FileEntry} {maximum : ℕ} {payload : List UInt8}
    (h : regularFile file maximum = .ok payload) : payload.length ≤ maximum := by
  cases file with
  | none => cases h
  | some file =>
    obtain ⟨-,-,h⟩ := bind_ok.mp h
    obtain ⟨-,-,h⟩ := bind_ok.mp h
    obtain ⟨_,hlength,h⟩ := bind_ok.mp h
    cases h
    exact require_ok.mp hlength

theorem parseParagraphs_length {payload : List UInt8} {fields : JsonObject} {texts : List Text}
    (h : parseParagraphs L payload fields = .ok texts) : texts.length ≤ payload.length ∧
      jsonEqual (.number texts.length) (get fields "paragraph_count") = true := by
  obtain ⟨found,hfound,h⟩ := bind_ok.mp h
  obtain ⟨_,hcount,h⟩ := bind_ok.mp h
  cases h
  refine ⟨?_,require_ok.mp hcount⟩
  rw [← (mapM_ok.mp hfound).length_eq,List.length_zipIdx]
  exact splitLines_length [] false payload

theorem positive_count {value : Json} {n : ℕ} (h : jsonEqual (.number n) value = true)
    (hvalue : positive value = true) : 0 < n := by
  cases value with
  | number count =>
    have hrational : (n : ℚ) = (count : ℚ) := by
      simpa [jsonEqual,AttuPreparation.numeric] using h
    have hcount : (n : ℤ) = count := by exact_mod_cast hrational
    have hpos : 0 < count := of_decide_eq_true hvalue
    omega
  | bool b =>
    change b = true at hvalue
    have hone : n = 1 := by
      simpa [jsonEqual,AttuPreparation.numeric,hvalue] using h
    omega
  | _ => cases hvalue

/-- What the reader has checked of a document before it looks at the cursor. -/
structure Sound (documentId : Text) (document : Loaded) : Prop where
  identity : isHex 64 documentId = true
  version : isHex 64 document.version = true
  nonempty : 0 < document.paragraphs.length
  bounded : document.paragraphs.length ≤ maxParagraphsBytes

theorem load_sound (h : load L store disk documentId = .ok document) :
    Sound documentId document := by
  unfold load at h
  obtain ⟨_,hid,h⟩ := bind_ok.mp h
  split at h
  · cases h
  · obtain ⟨file,-,h⟩ := bind_ok.mp h
    obtain ⟨manifestRaw,-,h⟩ := bind_ok.mp h
    obtain ⟨-,-,h⟩ := bind_ok.mp h
    obtain ⟨outputDirectory,-,h⟩ := bind_ok.mp h
    obtain ⟨directory,-,h⟩ := bind_ok.mp h
    obtain ⟨documentRaw,-,h⟩ := bind_ok.mp h
    obtain ⟨fields,-,h⟩ := bind_ok.mp h
    obtain ⟨_,hvalid,h⟩ := bind_ok.mp h
    obtain ⟨paragraphsRaw,hraw,h⟩ := bind_ok.mp h
    obtain ⟨hashes,-,h⟩ := bind_ok.mp h
    split at h
    · obtain ⟨same,-,h⟩ := bind_ok.mp h
      obtain ⟨-,-,h⟩ := bind_ok.mp h
      obtain ⟨paragraphs,hparse,h⟩ := bind_ok.mp h
      cases h
      obtain ⟨-,-,-,-,-,-,hcount,hversion⟩ := require_ok.mp hvalid
      obtain ⟨hlength,hequal⟩ := parseParagraphs_length hparse
      exact ⟨require_ok.mp hid,hversion,positive_count hequal hcount,
        hlength.trans (regularFile_le hraw)⟩
    · cases h

theorem openStore_limits {s : Settings} (h : openStore L s disk = .ok store) :
    (store.maxParagraphs : ℤ) = s.maxParagraphs ∧ (store.maxChars : ℤ) = s.maxChars := by
  unfold openStore at h
  split at h
  · next hlimits =>
    obtain ⟨-,-,h⟩ := bind_ok.mp h
    obtain ⟨-,-,h⟩ := bind_ok.mp h
    obtain ⟨-,-,h⟩ := bind_ok.mp h
    obtain ⟨file,-,h⟩ := bind_ok.mp h
    obtain ⟨payload,-,h⟩ := bind_ok.mp h
    obtain ⟨-,-,h⟩ := bind_ok.mp h
    obtain ⟨documents,-,h⟩ := bind_ok.mp h
    cases h
    obtain ⟨⟨hparagraphs,-⟩,hchars,-⟩ := hlimits
    dsimp only
    omega
  · cases h

theorem digit_ascii {c : Char} (h : c.isDigit = true) : 48 ≤ c.toNat ∧ c.toNat ≤ 57 := by
  simp only [Char.isDigit,Bool.and_eq_true,decide_eq_true_eq] at h
  exact ⟨UInt32.le_iff_toNat_le.mp h.1,UInt32.le_iff_toNat_le.mp h.2⟩

theorem digitValue_ascii {c : Char} (h : c.isDigit = true) :
    digitValue c = c.toNat-48 ∧ isDecimal c = true := by
  have hc := digit_ascii h
  have hfirst : (decide (48 ≤ c.toNat) && decide (c.toNat < 48+10)) = true := by
    simp only [Bool.and_eq_true,decide_eq_true_eq]
    omega
  constructor
  · simp only [digitValue,decimalZeros,List.find?_cons,hfirst]
  · simp only [isDecimal,decimalZeros,List.any_cons,hfirst,Bool.true_or]

theorem digit_plain {c : Char} (h : c.isDigit = true) :
    intSpace c = false ∧ c ≠ '-' ∧ c ≠ '+' ∧ c ≠ '_' ∧ c ≠ '.' := by
  have hc := digit_ascii h
  refine ⟨?_,?_,?_,?_,?_⟩
  · have hspace : c ≠ ' ' := by
      rintro rfl
      cases h
    have hlow : ¬c.toNat ≤ 13 := by omega
    simp only [intSpace,if_pos (show c.toNat < 128 by omega),hlow,decide_false,Bool.and_false,
      Bool.false_or,beq_eq_false_iff_ne]
    exact hspace
  all_goals
    rintro rfl
    cases h

theorem int_digits {n : ℕ} (h : (Nat.toDigits 10 n).length ≤ 4300) :
    int (Nat.toDigits 10 n) = some (n : ℤ) := by
  have hdigits : ∀ c ∈ Nat.toDigits 10 n, c.isDigit = true := fun c hc =>
    JsonReader.digits_isDigit hc
  have hne : Nat.toDigits 10 n ≠ [] := Nat.toDigits_ne_nil
  have hvalue : JsonText.decimal (Nat.toDigits 10 n) = n := JsonText.decimal_toDigits n
  generalize Nat.toDigits 10 n = digits at *
  have hhead : digits.dropWhile intSpace = digits := by
    apply List.dropWhile_eq_self_iff.mpr
    intro hpos
    rw [(digit_plain (hdigits _ (List.getElem_mem hpos))).1]
    exact Bool.false_ne_true
  have htail : digits.rdropWhile intSpace = digits := by
    apply List.rdropWhile_eq_self_iff.mpr
    intro hnil
    rw [(digit_plain (hdigits _ (List.getLast_mem hnil))).1]
    exact Bool.false_ne_true
  have hsigned : signed digits = (false,digits) := by
    cases digits with
    | nil => rfl
    | cons c digits =>
      obtain ⟨-,hminus,hplus,-⟩ := digit_plain (hdigits c List.mem_cons_self)
      unfold signed
      split
      · exact absurd (List.cons.inj ‹_›).1 hminus
      · exact absurd (List.cons.inj ‹_›).1 hplus
      · rfl
  have hgroups : digits.splitOnP (· == '_') = [digits] := by
    apply List.splitOnP_eq_singleton
    intro c hc
    exact beq_eq_false_iff_ne.mpr (digit_plain (hdigits c hc)).2.2.2.1
  have hall : digits.all isDecimal = true :=
    List.all_eq_true.mpr fun c hc => (digitValue_ascii (hdigits c hc)).2
  have hfold : ∀ m, digits.foldl (fun n c => n*10+digitValue c) m =
      digits.foldl (fun n c => n*10+(c.toNat-48)) m := by
    intro m
    apply List.foldl_ext
    intro m c hc
    rw [(digitValue_ascii (hdigits c hc)).1]
  have hread : digits.foldl (fun n c => n*10+digitValue c) 0 = n := (hfold 0).trans hvalue
  unfold int
  rw [hhead,htail,hsigned]
  simp [hgroups,hall,hne,h,hread]

theorem hex_chars : ∀ c ∈ hexDigits, c.toNat < 128 ∧ c.isAlphanum = true := by
  have hall : (hexDigits.all fun c => decide (c.toNat < 128 ∧ c.isAlphanum = true)) = true := by
    decide
  exact fun c hc => of_decide_eq_true (List.all_eq_true.mp hall c hc)

theorem isHex_iff {width : ℕ} {text : Text} :
    isHex width text = true ↔ text.length = width ∧ ∀ c ∈ text, c ∈ hexDigits := by
  simp [isHex]

theorem identifier_hex {text : Text} (h : isHex 64 text = true) : identifier L text = true := by
  obtain ⟨hlength,hmem⟩ := isHex_iff.mp h
  simp only [identifier,Bool.and_eq_true,decide_eq_true_eq,List.all_eq_true,Bool.or_eq_true]
  refine ⟨by omega,fun c hc => .inl (.inl ?_)⟩
  obtain ⟨hlow,halnum⟩ := hex_chars c (hmem c hc)
  rw [isWord,if_pos hlow,halnum,Bool.true_or]

theorem ascii_hex {text : Text} (h : isHex 64 text = true) : ascii text = true := by
  apply List.all_eq_true.mpr
  intro c hc
  exact decide_eq_true (hex_chars c ((isHex_iff.mp h).2 c hc)).1

variable (L store documentId document) in
theorem signature_hex (offset : ℕ) :
    isHex 64 (signature L store documentId document offset) = true := hex_isHex _

theorem offset_digits {n : ℕ} (h : n ≤ maxParagraphsBytes) :
    (Nat.toDigits 10 n).length ≤ 8 := by
  apply (Nat.length_toDigits_le_iff (by decide) (by decide)).mpr
  unfold maxParagraphsBytes at h
  omega

theorem identifier_cursor {n : ℕ} (h : n ≤ maxParagraphsBytes) :
    identifier L (encodeCursor L store documentId document n) = true := by
  have hsignature := signature_hex L store documentId document n
  have hdigits := offset_digits h
  obtain ⟨hlength,-⟩ := isHex_iff.mp hsignature
  have hword := identifier_hex (L := L) hsignature
  simp only [identifier,Bool.and_eq_true,decide_eq_true_eq,List.all_eq_true] at hword ⊢
  unfold encodeCursor
  refine ⟨by rw [List.length_append,List.length_cons]; omega,fun c hc => ?_⟩
  rcases List.mem_append.mp hc with hdigit | hrest
  · have hascii := JsonReader.digits_isDigit hdigit
    have hc := digit_ascii hascii
    simp [isWord,show c.toNat < 128 by omega,Char.isAlphanum,hascii]
  · rcases List.mem_cons.mp hrest with rfl | hmem
    · simp
    · exact hword.2 c hmem

theorem cursor_split (n : ℕ) (text : Text) :
    '.' ∈ Nat.toDigits 10 n++ '.'::text ∧
    (Nat.toDigits 10 n++ '.'::text).takeWhile (· ≠ '.') = Nat.toDigits 10 n ∧
    ((Nat.toDigits 10 n++ '.'::text).dropWhile (· ≠ '.')).drop 1 = text := by
  have hplain : ∀ c ∈ Nat.toDigits 10 n, decide (c ≠ '.') = true := fun c hc =>
    decide_eq_true (digit_plain (JsonReader.digits_isDigit hc)).2.2.2.2
  refine ⟨by simp,?_,?_⟩
  · rw [List.takeWhile_append_of_pos hplain]
    simp
  · rw [List.dropWhile_append_of_pos hplain]
    simp

theorem decode_issued {other : Store} {otherId : Text} {presented : Loaded} {n : ℕ} (hpos : 0 < n)
    (h : n ≤ maxParagraphsBytes) :
    decodeCursor L other otherId presented (some (encodeCursor L store documentId document n)) =
      if signature L other otherId presented n = signature L store documentId document n then .ok n
      else .error "invalid_cursor" := by
  obtain ⟨hdot,hfirst,hsecond⟩ := cursor_split n (signature L store documentId document n)
  have hint : int (Nat.toDigits 10 n) = some (n : ℤ) :=
    int_digits ((offset_digits h).trans (by decide))
  have hascii : (ascii (signature L other otherId presented n) &&
      ascii (signature L store documentId document n)) = true := by
    rw [ascii_hex (signature_hex ..),ascii_hex (signature_hex ..)]
    rfl
  unfold decodeCursor encodeCursor
  simp only [if_pos hdot,hfirst,hsecond,hint,Int.toNat_natCast,compareDigest,hascii,if_true]
  rw [show require (0 < (n : ℤ)) "invalid_cursor" = .ok () from
    if_pos (Int.natCast_pos.mpr hpos)]
  by_cases hsame : signature L other otherId presented n = signature L store documentId document n
  · rw [if_pos hsame,hsame]
    simp [require,bind,Except.bind]
  · rw [if_neg hsame]
    simp [require,bind,Except.bind,hsame]

def line (paragraph : Text) : Text := paragraph++['\n']

def lineSize (paragraph : Text) : ℕ := (encode (line paragraph)).length

def Fits (store : Store) (paragraph : Text) : Prop := lineSize paragraph ≤ store.maxChars

instance (store : Store) : DecidablePred (Fits store) := fun _ =>
  inferInstanceAs (Decidable (_ ≤ _))

theorem encode_lines (part : List Text) :
    (encode (part.map line).flatten).length = (part.map lineSize).sum := by
  induction part with
  | nil => rfl
  | cons paragraph part ih =>
    rw [List.map_cons,List.flatten_cons,encode,List.flatMap_append,List.length_append,List.map_cons,
      List.sum_cons,← ih]
    rfl

/-- The loop behind its first piece takes paragraphs as long as both limits hold. -/
theorem fill_more {maxParagraphs maxChars : ℕ} (rest : List Text) {pieces : List Text}
    (hne : pieces ≠ []) {size : ℕ} (hsize : size ≤ maxChars)
    (hcount : pieces.length ≤ maxParagraphs) : ∃ part left, rest = part++left ∧
      fill maxParagraphs maxChars pieces size rest = .ok (pieces++part.map line) ∧
      size+(part.map lineSize).sum ≤ maxChars ∧ pieces.length+part.length ≤ maxParagraphs := by
  induction rest generalizing pieces size with
  | nil => exact ⟨[],[],rfl,by simp [fill],hsize,hcount⟩
  | cons paragraph rest ih =>
    unfold fill
    by_cases hroom : pieces.length < maxParagraphs
    · rw [if_pos hroom]
      by_cases hover : maxChars < size+(encode (paragraph++['\n'])).length
      · exact ⟨[],paragraph::rest,rfl,by simp [hne,hover],hsize,hcount⟩
      · obtain ⟨part,left,hrest,hfill,hsum,hlength⟩ :=
          @ih (pieces++[line paragraph]) (by simp) (size+lineSize paragraph)
            (Nat.le_of_not_lt hover) (by rw [List.length_append]; exact hroom)
        refine ⟨paragraph::part,left,by rw [hrest]; rfl,?_,?_,?_⟩
        · have hnone : ¬(pieces ≠ [] ∧ maxChars < size+(encode (paragraph++['\n'])).length) :=
            fun h => hover h.2
          have hkept : ¬(pieces = [] ∧ maxChars < (encode (paragraph++['\n'])).length) :=
            fun h => hne h.1
          simp only [if_neg hnone,if_neg hkept]
          refine hfill.trans ?_
          rw [List.append_assoc]
          rfl
        · rw [List.map_cons,List.sum_cons,← Nat.add_assoc]
          exact hsum
        · rw [List.length_append,List.length_singleton] at hlength
          rw [List.length_cons]
          omega
    · rw [if_neg hroom]
      exact ⟨[],paragraph::rest,rfl,by simp,hsize,hcount⟩

theorem fill_fits (hfits : Fits store paragraph) (rest : List Text) : ∃ part left,
    paragraph::rest = part++left ∧ part ≠ [] ∧
      fill store.maxParagraphs store.maxChars [] 0 (paragraph::rest) = .ok (part.map line) ∧
      (part.map lineSize).sum ≤ store.maxChars ∧ part.length ≤ store.maxParagraphs := by
  have hroom : ([] : List Text).length < store.maxParagraphs := store.paragraphsRange.1
  obtain ⟨part,left,hrest,hfill,hsum,hlength⟩ := @fill_more store.maxParagraphs store.maxChars rest
    [line paragraph] (by simp) (lineSize paragraph) hfits hroom
  refine ⟨paragraph::part,left,by rw [hrest]; rfl,by simp,?_,?_,?_⟩
  · have hkept : ¬store.maxChars < (encode (paragraph++[ '\n'])).length := Nat.not_lt_of_le hfits
    unfold fill
    simp only [if_pos hroom,ne_eq,not_true_eq_false,false_and,if_false,true_and,if_neg hkept,
      Nat.zero_add,List.nil_append]
    exact hfill
  · rw [List.map_cons,List.sum_cons]
    exact hsum
  · rw [List.length_cons]
    simpa [Nat.add_comm] using hlength

theorem fill_refuses (hlarge : ¬Fits store paragraph) (rest : List Text) :
    fill store.maxParagraphs store.maxChars [] 0 (paragraph::rest) =
      .error "paragraph_too_large" := by
  have hroom : ([] : List Text).length < store.maxParagraphs := store.paragraphsRange.1
  have hover : store.maxChars < (encode (paragraph++[ '\n'])).length := Nat.lt_of_not_le hlarge
  unfold fill
  simp only [if_pos hroom,ne_eq,not_true_eq_false,false_and,if_false,true_and,if_pos hover]

theorem fill_pieces {rest pieces : List Text} (hne : rest ≠ [])
    (h : fill store.maxParagraphs store.maxChars [] 0 rest = .ok pieces) :
    ∃ part left, rest = part++left ∧ part ≠ [] ∧ pieces = part.map line := by
  cases rest with
  | nil => exact absurd rfl hne
  | cons paragraph rest =>
    by_cases hfits : Fits store paragraph
    · obtain ⟨part,left,hsplit,hpart,hfill,-⟩ := fill_fits hfits rest
      exact ⟨part,left,hsplit,hpart,Except.ok.inj (h.symm.trans hfill)⟩
    · rw [fill_refuses hfits] at h
      cases h

def Description.valid (d : Description) : Bool :=
  shortText d.title && decide (d.flags.length ≤ 50) && d.flags.all shortText &&
    shortText d.parserVersion

def Shows (store : Store) (page : LegalDocumentPage L) (part : List Text) : Prop :=
  page.value.text = (part.map line).flatten ∧ part.length ≤ store.maxParagraphs ∧
    (encode page.value.text).length ≤ store.maxChars

theorem shortText_length {text : Text} (h : 1 ≤ text.length ∧ text.length ≤ 4000) :
    shortText text = true := decide_eq_true h

theorem sourceRef_length (documentId : Text) :
    (sourceRef documentId).length = 18+documentId.length := by
  have hprefix : "offline-export-v1:".toList.length = 18 := by simp
  exact List.length_append.trans (congrArg (· + documentId.length) hprefix)

/-- The fields of a page, whatever the offset, that its document determines. -/
structure Describes (store : Store) (documentId : Text) (document : Loaded) (d : Description)
    (p : PageFields) : Prop where
  identity : p.documentId = documentId
  title : p.title = d.title
  version : p.version = document.version
  content : p.contentHash = (hex document.contentHash).toList
  flags : p.qualityFlags = d.flags
  source : p.sourceRef = sourceRef documentId
  dataset : p.datasetVersion = store.manifestSha256
  parser : p.parserVersion = d.parserVersion

theorem checks_pass (hsound : Sound documentId document) {d : Description} (hd : d.valid = true)
    {p : PageFields} (h : Describes store documentId document d p)
    (hcursor : p.cursor.all (identifier L) = true)
    (hnext : p.nextCursor.all (identifier L) = true)
    (htext : 1 ≤ p.text.length ∧ p.text.length ≤ 262144)
    (hcomplete : (p.complete != p.nextCursor.isSome) = true) :
    ∀ c ∈ pageChecks L p, c.1 = true := by
  simp only [Description.valid,Bool.and_eq_true,decide_eq_true_eq] at hd
  obtain ⟨⟨⟨htitle,hcount⟩,hflags⟩,hparser⟩ := hd
  have hidLength : documentId.length = 64 := (isHex_iff.mp hsound.identity).1
  have hdatasetLength : store.manifestSha256.length = 64 :=
    (isHex_iff.mp (hex_isHex store.manifest)).1
  have hsource : shortText p.sourceRef = true := by
    apply shortText_length
    rw [h.source,sourceRef_length,hidLength]
    omega
  have hdataset : shortText p.datasetVersion = true := by
    apply shortText_length
    rw [h.dataset,hdatasetLength]
    omega
  have hcontent : isHex 64 p.contentHash = true := by
    rw [h.content]
    exact hex_isHex _
  rw [← h.identity] at hsound
  rw [← h.title] at htitle
  rw [← h.flags] at hcount hflags
  rw [← h.parser] at hparser
  have hid := identifier_hex (L := L) hsound.identity
  have hversion := identifier_hex (L := L) hsound.version
  rw [← h.version] at hversion
  simp only [pageChecks,List.map_cons,List.map_nil,List.forall_mem_cons,List.not_mem_nil,
    false_implies,implies_true,and_true]
  exact ⟨hid,htitle,hversion,hcontent,hcursor,hnext,decide_eq_true htext,decide_eq_true hcount,
    hflags,hsource,hdataset,hparser,hcomplete⟩

theorem pageOf_describes {d : Description} {cursor : Option Text} {offset : ℕ}
    {pieces : List Text} :
    Describes store documentId document d
      (pageOf L store documentId document d cursor offset pieces) := by
  constructor
  all_goals
    unfold pageOf
    dsimp only

theorem pageOf_next {d : Description} {cursor : Option Text} {offset : ℕ} {pieces : List Text} :
    (pageOf L store documentId document d cursor offset pieces).nextCursor =
      if offset+pieces.length = document.paragraphs.length then none
      else some (encodeCursor L store documentId document (offset+pieces.length)) := by
  unfold pageOf
  simp only [beq_iff_eq]

theorem pageOf_complete {d : Description} {cursor : Option Text} {offset : ℕ}
    {pieces : List Text} :
    ((pageOf L store documentId document d cursor offset pieces).complete !=
      (pageOf L store documentId document d cursor offset pieces).nextCursor.isSome) = true := by
  unfold pageOf
  dsimp only
  cases offset+pieces.length == document.paragraphs.length <;> rfl

theorem pageOf_checks (hsound : Sound documentId document) {d : Description}
    (hd : d.valid = true) {cursor : Option Text} {offset : ℕ} {pieces : List Text}
    (hcursor : cursor.all (identifier L) = true)
    (hstop : offset+pieces.length ≤ document.paragraphs.length)
    (htext : 1 ≤ pieces.flatten.length ∧ pieces.flatten.length ≤ 262144) :
    ∀ c ∈ pageChecks L (pageOf L store documentId document d cursor offset pieces),
      c.1 = true := by
  have hbound := hsound.bounded
  have hnext : (pageOf L store documentId document d cursor offset pieces).nextCursor.all
      (identifier L) = true := by
    rw [pageOf_next]
    split
    · rfl
    · exact identifier_cursor (hstop.trans hbound)
  exact checks_pass hsound hd pageOf_describes hcursor hnext htext pageOf_complete

def Stands (L : Library) (store : Store) (documentId : Text) (document : Loaded)
    (cursor : Option Text) (n : ℕ) : Prop :=
  n = 0 ∧ cursor = none ∨ 0 < n ∧ cursor = some (encodeCursor L store documentId document n)

theorem stands_decode {cursor : Option Text} {n : ℕ}
    (h : Stands L store documentId document cursor n) (hn : n ≤ maxParagraphsBytes) :
    decodeCursor L store documentId document cursor = .ok n ∧
      cursor.all (identifier L) = true := by
  rcases h with ⟨rfl,rfl⟩ | ⟨hpos,rfl⟩
  · exact ⟨rfl,rfl⟩
  · rw [decode_issued hpos hn,if_pos rfl]
    exact ⟨rfl,identifier_cursor hn⟩

theorem readSync_page (hload : load L store disk documentId = .ok document) {d : Description}
    (hdescribe : describe L document = .ok d) (hd : d.valid = true) {cursor : Option Text} {n : ℕ}
    (hstands : Stands L store documentId document cursor n) {part left : List Text}
    (hdrop : document.paragraphs.drop n = part++left) (hpart : part ≠ [])
    (hfill : fill store.maxParagraphs store.maxChars [] 0 (document.paragraphs.drop n) =
      .ok (part.map line))
    (hsum : (part.map lineSize).sum ≤ store.maxChars)
    (hlength : part.length ≤ store.maxParagraphs) :
    ∃ page, readSync L store disk documentId cursor = .ok page ∧ Shows store page part ∧
      page.value.nextCursor = if left = [] then none
        else some (encodeCursor L store documentId document (n+part.length)) := by
  have hsound := load_sound hload
  have hpos := List.length_pos_iff.mpr hpart
  have hcount := congrArg List.length hdrop
  rw [List.length_drop,List.length_append] at hcount
  have hn : n < document.paragraphs.length := by omega
  have hbound := hsound.bounded
  obtain ⟨hdecode,hcursor⟩ := stands_decode hstands (by omega)
  have hbytes : (encode (part.map line).flatten).length ≤ store.maxChars := by
    rw [encode_lines]
    exact hsum
  have hchars := encode_length (part.map line).flatten
  have hlimit := store.charsRange.2
  have htext : 1 ≤ (part.map line).flatten.length ∧ (part.map line).flatten.length ≤ 262144 := by
    refine ⟨?_,by omega⟩
    cases part with
    | nil => exact absurd rfl hpart
    | cons paragraph part =>
      rw [List.map_cons,List.flatten_cons,line,List.length_append,List.length_append]
      exact Nat.le_add_right_of_le (Nat.le_add_left 1 _)
  have hstop : n+(part.map line).length ≤ document.paragraphs.length := by
    rw [List.length_map]
    omega
  have hchecks := @pageOf_checks L store _ _ hsound _ hd _ _ _ hcursor hstop htext
  refine ⟨⟨_,firstError_all hchecks⟩,?_,⟨rfl,hlength,hbytes⟩,?_⟩
  · unfold readSync
    simp only [hload,hdecode,bind,Except.bind,require,if_pos hn,hfill,hdescribe]
    exact postInit_of hchecks
  · have hcomplete : (n+(part.map line).length == document.paragraphs.length) = left.isEmpty := by
      rw [List.length_map,Bool.eq_iff_iff,beq_iff_eq,List.isEmpty_iff,
        ← List.length_eq_zero_iff]
      omega
    unfold pageOf
    dsimp only
    rw [hcomplete]
    simp only [List.isEmpty_iff,List.length_map]

def outcome (store : Store) (document : Loaded) : Option String :=
  if ∀ paragraph ∈ document.paragraphs, Fits store paragraph then none
  else some "paragraph_too_large"

/-- The cursor stands in front of what remains of the paragraphs up to the first
that no page can hold; none has been met so far. -/
def Place (L : Library) (store : Store) (documentId : Text) (document : Loaded)
    (cursor : Option Text) (rest : List Text) : Prop :=
  ∃ n, Stands L store documentId document cursor n ∧ n < document.paragraphs.length ∧
    (∀ paragraph ∈ document.paragraphs.take n, Fits store paragraph) ∧
    rest = (document.paragraphs.drop n).takeWhile (Fits store ·)

theorem fits_all {n : ℕ} (hread : ∀ q ∈ document.paragraphs.take n, Fits store q)
    (hleft : ∀ q ∈ document.paragraphs.drop n, Fits store q) :
    ∀ q ∈ document.paragraphs, Fits store q := by
  intro q hq
  rw [← List.take_append_drop n document.paragraphs] at hq
  rcases List.mem_append.mp hq with hq | hq
  · exact hread q hq
  · exact hleft q hq

theorem sum_fits {part : List Text} (h : (part.map lineSize).sum ≤ store.maxChars) :
    ∀ q ∈ part, Fits store q := by
  intro q hq
  obtain ⟨before,after,rfl⟩ := List.append_of_mem hq
  rw [List.map_append,List.sum_append,List.map_cons,List.sum_cons] at h
  unfold Fits
  omega

theorem turn (hload : load L store disk documentId = .ok document) {d : Description}
    (hdescribe : describe L document = .ok d) (hd : d.valid = true) (cursor : Option Text)
    (rest : List Text) (hplace : Place L store documentId document cursor rest) :
    Turn (readSync L store disk documentId) (·.value.nextCursor)
      (Place L store documentId document) (Shows store) (outcome store document) cursor rest := by
  obtain ⟨n,hstands,hn,hread,rfl⟩ := hplace
  obtain ⟨paragraph,after,hdrop⟩ : ∃ paragraph after,
      document.paragraphs.drop n = paragraph::after := by
    cases hdrop : document.paragraphs.drop n with
    | nil => exact absurd (List.drop_eq_nil_iff.mp hdrop) (Nat.not_le_of_lt hn)
    | cons paragraph after => exact ⟨paragraph,after,rfl⟩
  by_cases hfits : Fits store paragraph
  · obtain ⟨part,left,hsplit,hpart,hfill,hsum,hlength⟩ := fill_fits hfits after
    rw [← hdrop] at hsplit hfill
    have htaken := sum_fits hsum
    have hwhile : (document.paragraphs.drop n).takeWhile (Fits store ·) =
        part++left.takeWhile (Fits store ·) := by
      rw [hsplit]
      exact List.takeWhile_append_of_pos fun q hq => decide_eq_true (htaken q hq)
    obtain ⟨page,hpage,hshows,hnext⟩ :=
      readSync_page hload hdescribe hd hstands hsplit hpart hfill hsum hlength
    rw [hwhile]
    by_cases hleft : left = []
    · have hall : ∀ q ∈ document.paragraphs, Fits store q := by
        apply fits_all hread
        rw [hsplit,hleft,List.append_nil]
        exact htaken
      rw [if_pos hleft] at hnext
      rw [hleft,List.takeWhile_nil,List.append_nil]
      exact .last hpage hnext hshows (if_pos hall)
    · rw [if_neg hleft] at hnext
      have hpos := List.length_pos_iff.mpr hpart
      have hrest := List.length_pos_iff.mpr hleft
      have hcount := congrArg List.length hsplit
      rw [List.length_drop,List.length_append] at hcount
      refine .more hpage hnext hpart hshows ⟨n+part.length,.inr ⟨by omega,rfl⟩,by omega,?_,?_⟩
      · rw [List.take_add,hsplit,List.take_left]
        intro q hq
        rcases List.mem_append.mp hq with hq | hq
        · exact hread q hq
        · exact htaken q hq
      · rw [← List.drop_drop,hsplit,List.drop_left]
  · have hnone : (document.paragraphs.drop n).takeWhile (Fits store ·) = [] := by
      rw [hdrop]
      exact List.takeWhile_cons_of_neg (by simpa using hfits)
    have houtcome : outcome store document = some "paragraph_too_large" := by
      apply if_neg
      intro hall
      apply hfits
      apply hall
      apply List.mem_of_mem_drop (i := n)
      rw [hdrop]
      exact List.mem_cons_self
    have hbound := (load_sound hload).bounded
    obtain ⟨hdecode,-⟩ := stands_decode hstands (by omega)
    rw [hnone]
    refine .refused ?_ houtcome
    unfold readSync
    simp only [hload,hdecode,bind,Except.bind,require,if_pos hn,hdrop,fill_refuses hfits]

theorem cursorMessage_inj {other : Store} {otherId : Text} {presented : Loaded} {n m : ℕ}
    (hsound : Sound documentId document) (hother : Sound otherId presented)
    (h : cursorMessage store documentId document n = cursorMessage other otherId presented m) :
    store.manifest = other.manifest ∧ documentId = otherId ∧
      document.version = presented.version := by
  have hlength : ∀ d : Digest, (hex d).toList.length = 64 := fun d =>
    (isHex_iff.mp (hex_isHex d)).1
  unfold cursorMessage Store.manifestSha256 at h
  simp only [List.append_assoc,List.cons_append] at h
  obtain ⟨hmanifest,h⟩ := List.append_inj h ((hlength _).trans (hlength _).symm)
  obtain ⟨hid,h⟩ := List.append_inj (List.cons.inj h).2
    ((isHex_iff.mp hsound.identity).1.trans (isHex_iff.mp hother.identity).1.symm)
  obtain ⟨hversion,-⟩ := List.append_inj (List.cons.inj h).2
    ((isHex_iff.mp hsound.version).1.trans (isHex_iff.mp hother.version).1.symm)
  exact ⟨hex_inj (String.toList_inj.mp hmanifest),hid,hversion⟩

theorem readSync_next {cursor : Option Text} {page : LegalDocumentPage L} {c : Text}
    (hload : load L store disk documentId = .ok document)
    (h : readSync L store disk documentId cursor = .ok page)
    (hnext : page.value.nextCursor = some c) :
    ∃ n, 0 < n ∧ n ≤ document.paragraphs.length ∧
      c = encodeCursor L store documentId document n := by
  obtain ⟨loaded,hloaded,h⟩ := bind_ok.mp h
  cases Except.ok.inj (hload.symm.trans hloaded)
  obtain ⟨offset,-,h⟩ := bind_ok.mp h
  obtain ⟨_,hoffset,h⟩ := bind_ok.mp h
  obtain ⟨pieces,hpieces,h⟩ := bind_ok.mp h
  obtain ⟨d,-,h⟩ := bind_ok.mp h
  rw [postInit_ok h,pageOf_next] at hnext
  have hlt := require_ok.mp hoffset
  have hrest : document.paragraphs.drop offset ≠ [] := by
    rw [ne_eq,List.drop_eq_nil_iff]
    omega
  obtain ⟨part,left,hsplit,hpart,rfl⟩ := fill_pieces hrest hpieces
  have hpos := List.length_pos_iff.mpr hpart
  have hcount := congrArg List.length hsplit
  rw [List.length_drop,List.length_append] at hcount
  split at hnext
  · cases hnext
  · cases hnext
    rw [List.length_map]
    exact ⟨offset+part.length,by omega,by omega,rfl⟩

theorem other_rejected {cursor : Option Text} {page : LegalDocumentPage L} {c : Text}
    (hload : load L store disk documentId = .ok document)
    (h : readSync L store disk documentId cursor = .ok page)
    (hnext : page.value.nextCursor = some c) {other : Store} {otherDisk : Disk} {otherId : Text}
    {presented : Loaded} (hother : load L other otherDisk otherId = .ok presented)
    (hdiffer : ¬(store.manifest = other.manifest ∧ documentId = otherId ∧
      document.version = presented.version))
    (hfree : ∀ n, L.hmac store.secret (encode (cursorMessage store documentId document n)) =
      L.hmac other.secret (encode (cursorMessage other otherId presented n)) →
        cursorMessage store documentId document n = cursorMessage other otherId presented n) :
    readSync L other otherDisk otherId (some c) = .error "invalid_cursor" := by
  obtain ⟨n,hpos,hn,rfl⟩ := readSync_next hload h hnext
  have hsound := load_sound hload
  have hbound := hn.trans hsound.bounded
  have hsignature : signature L other otherId presented n ≠
      signature L store documentId document n := by
    intro hsame
    have hdigest := hex_inj (String.toList_inj.mp hsame)
    exact hdiffer (cursorMessage_inj hsound (load_sound hother) (hfree n hdigest.symm))
  unfold readSync
  rw [hother]
  change (decodeCursor L other otherId presented _ >>= _) = _
  rw [decode_issued hpos hbound,if_neg hsignature]
  rfl

/-- Following the cursors from the start delivers the paragraphs in order, up to
the first that no page can hold, and a cursor opens no other document. -/
theorem document_paged (L : Library) (s : Settings) (disk₀ disk : Disk) (store : Store)
    (hopen : openStore L s disk₀ = .ok store) (documentId : Text) (document : Loaded)
    (hload : load L store disk documentId = .ok document) (d : Description)
    (hdescribe : describe L document = .ok d) (hd : d.valid = true) :
    ((store.maxParagraphs : ℤ) = s.maxParagraphs ∧ (store.maxChars : ℤ) = s.maxChars) ∧
      (∃ pages parts, Follows (readSync L store disk documentId) (·.value.nextCursor) none pages
          (if ∀ paragraph ∈ document.paragraphs, Fits store paragraph then none
            else some "paragraph_too_large") ∧
        List.Forall₂ (Shows store) pages parts ∧
        parts.flatten = document.paragraphs.takeWhile (Fits store ·)) ∧
      ∀ cursor page c, readSync L store disk documentId cursor = .ok page →
        page.value.nextCursor = some c →
        ∀ other otherDisk otherId presented, load L other otherDisk otherId = .ok presented →
          ¬(store.manifest = other.manifest ∧ documentId = otherId ∧
            document.version = presented.version) →
          (∀ n, L.hmac store.secret (encode (cursorMessage store documentId document n)) =
            L.hmac other.secret (encode (cursorMessage other otherId presented n)) →
              cursorMessage store documentId document n =
                cursorMessage other otherId presented n) →
          readSync L other otherDisk otherId (some c) = .error "invalid_cursor" := by
  have hplace : Place L store documentId document none
      (document.paragraphs.takeWhile (Fits store ·)) :=
    ⟨0,.inl ⟨rfl,rfl⟩,(load_sound hload).nonempty,by simp,rfl⟩
  exact ⟨openStore_limits hopen,follow_all (turn hload hdescribe hd) hplace,
    fun _ _ _ h hnext _ _ _ _ hother hdiffer hfree =>
      other_rejected hload h hnext hother hdiffer hfree⟩

def sampleId (c : Char) : Text := List.replicate 64 c

def sampleRow (c : Char) : JsonObject :=
  [("document_id",.string (String.ofList (sampleId c))),
    ("output_directory",.string (String.ofList (List.replicate 24 c))),
    ("status",.string "completed"),("id_namespace",.string "offline-export-v1"),
    ("source_sha256",.string (String.ofList (sampleId c))),("quality_flags",.array []),
    ("source_relative_path",.string "l")]

def sampleHash (bytes : List UInt8) : Digest := BitVec.ofNat 256 bytes.length

def sampleParagraphs : List UInt8 := [5,10,6]

def sampleDocument (c : Char) : JsonObject :=
  sampleRow c++[("schema_version",.string "legal-corpus-export-v2"),("paragraph_count",.number 2),
    ("output_hashes",
      .object [("paragraphs.jsonl",.string (hexdigest sampleHash sampleParagraphs))])]

def sampleParagraph (ordinal : ℤ) (text : String) : JsonObject :=
  [("ordinal",.number ordinal),("text",.string text),("location",.string "body"),
    ("part",.string "p")]

/-- The sixty-sixth byte of a message is the first of its document. -/
def sampleLibrary : Library where
  sha256 := sampleHash
  hmac _ message := BitVec.ofNat 256 (message.getD 65 0).toNat
  loads
    | [1] => some (.object (sampleRow 'a'))
    | [2] => some (.object (sampleRow 'b'))
    | [3] => some (.object (sampleDocument 'a'))
    | [4] => some (.object (sampleDocument 'b'))
    | [5] => some (.object (sampleParagraph 0 "k"))
    | [6] => some (.object (sampleParagraph 1 "l"))
    | _ => none
  str _ := []
  stem path := path
  word _ := false

def sampleFile (payload : List UInt8) : FileEntry := ⟨true,⟨payload.length,0,0,none⟩,payload⟩

def sampleFolder (document : UInt8) : Folder :=
  ⟨true,[("document.json",sampleFile [document]),("paragraphs.jsonl",sampleFile sampleParagraphs)]⟩

def sampleDisk : Disk :=
  ⟨true,[("manifest.jsonl",sampleFile [1,10,2])],
    [(String.ofList (List.replicate 24 'a'),sampleFolder 3),
      (String.ofList (List.replicate 24 'b'),sampleFolder 4)]⟩

def sampleSettings (maxChars : ℤ) : Settings := ⟨List.replicate 16 's',none,100,maxChars,2⟩

/-- The two documents of the sample as they are read under a limit. -/
def sampleReads (maxChars : ℤ) (paragraphs : List Text → Bool)
    (first : Except String (LegalDocumentPage sampleLibrary) → Bool) : Bool :=
  match openStore sampleLibrary (sampleSettings maxChars) sampleDisk with
  | .error _ => false
  | .ok store =>
    match load sampleLibrary store sampleDisk (sampleId 'a'),
      load sampleLibrary store sampleDisk (sampleId 'b') with
    | .ok a, .ok _ =>
      match describe sampleLibrary a with
      | .ok d => d.valid && decide (store.manifest = sampleHash [1,10,2]) &&
          paragraphs a.paragraphs && first (readSync sampleLibrary store sampleDisk (sampleId 'a')
            none)
      | .error _ => false
    | _, _ => false

theorem sampleReads_true {maxChars : ℤ} {paragraphs : List Text → Bool}
    {first : Except String (LegalDocumentPage sampleLibrary) → Bool}
    (h : sampleReads maxChars paragraphs first = true) :
    ∃ store a b d, openStore sampleLibrary (sampleSettings maxChars) sampleDisk = .ok store ∧
      load sampleLibrary store sampleDisk (sampleId 'a') = .ok a ∧
      load sampleLibrary store sampleDisk (sampleId 'b') = .ok b ∧
      describe sampleLibrary a = .ok d ∧ d.valid = true ∧ store.manifest = sampleHash [1,10,2] ∧
      paragraphs a.paragraphs = true ∧
      first (readSync sampleLibrary store sampleDisk (sampleId 'a') none) = true := by
  unfold sampleReads at h
  split at h
  · cases h
  · next store hopen =>
    split at h
    · next a b ha hb =>
      split at h
      · next d hd =>
        simp only [Bool.and_eq_true,decide_eq_true_eq] at h
        obtain ⟨⟨⟨hvalid,hmanifest⟩,hparagraphs⟩,hfirst⟩ := h
        exact ⟨store,a,b,d,hopen,ha,hb,hd,hvalid,hmanifest,hparagraphs,hfirst⟩
      · cases h
    · cases h

theorem sample_hmac (hmanifest : store.manifest = sampleHash [1,10,2]) (secret : List UInt8)
    {c : Char} (hc : c = 'a' ∨ c = 'b') (n : ℕ) :
    sampleLibrary.hmac secret (encode (cursorMessage store (sampleId c) document n)) =
      BitVec.ofNat 256 c.toNat := by
  have hlength : (encode store.manifestSha256).length = 64 := by
    rw [Store.manifestSha256,hmanifest]
    decide +kernel
  have hmessage : ∃ rest, cursorMessage store (sampleId c) document n =
      store.manifestSha256++ ':'::c::rest := by
    unfold cursorMessage
    simp only [List.append_assoc,List.cons_append]
    exact ⟨_,rfl⟩
  obtain ⟨rest,hrest⟩ := hmessage
  have hbytes : (encode (':'::c::rest)).getD 1 0 = c.toNat.toUInt8 := by
    rcases hc with rfl | rfl <;> rfl
  have hbyte : (encode (cursorMessage store (sampleId c) document n)).getD 65 0 =
      c.toNat.toUInt8 := by
    have hsplit : encode (store.manifestSha256++ ':'::c::rest) =
        encode store.manifestSha256++encode (':'::c::rest) := List.flatMap_append
    rw [hrest,hsplit,List.getD_eq_getElem?_getD,List.getElem?_append_right (by omega),hlength,
      ← List.getD_eq_getElem?_getD]
    exact hbytes
  change BitVec.ofNat 256 ((encode _).getD 65 0).toNat = _
  rw [hbyte]
  rcases hc with rfl | rfl <;> rfl

theorem document_paged_sample : ∃ store a b page c,
    openStore sampleLibrary (sampleSettings 2) sampleDisk = .ok store ∧
    load sampleLibrary store sampleDisk (sampleId 'a') = .ok a ∧
    load sampleLibrary store sampleDisk (sampleId 'b') = .ok b ∧
    (∃ pages parts, Follows (readSync sampleLibrary store sampleDisk (sampleId 'a'))
        (·.value.nextCursor) none pages none ∧
      List.Forall₂ (Shows store) pages parts ∧ parts.flatten = [['k'],['l']]) ∧
    readSync sampleLibrary store sampleDisk (sampleId 'a') none = .ok page ∧
    page.value.nextCursor = some c ∧
    readSync sampleLibrary store sampleDisk (sampleId 'b') (some c) = .error "invalid_cursor" := by
  have hreads : sampleReads 2 (· == [['k'],['l']]) (fun page => match page with
      | .ok page => page.value.nextCursor.isSome
      | .error _ => false) = true := by decide +kernel
  obtain ⟨store,a,b,d,hopen,ha,hb,hdescribe,hvalid,hmanifest,hparagraphs,hpage⟩ :=
    sampleReads_true hreads
  rw [beq_iff_eq] at hparagraphs
  have hpaged := document_paged sampleLibrary (sampleSettings 2) sampleDisk sampleDisk store hopen
    (sampleId 'a') a ha d hdescribe hvalid
  obtain ⟨⟨-,hlimit⟩,⟨pages,parts,hfollows,hshows,hflat⟩,hreject⟩ := hpaged
  have hchars : store.maxChars = 2 := Int.ofNat_inj.mp hlimit
  have hfits : ∀ paragraph ∈ a.paragraphs, Fits store paragraph := by
    rw [hparagraphs]
    unfold Fits
    rw [hchars]
    decide
  rw [if_pos hfits] at hfollows
  rw [List.takeWhile_eq_self_iff.mpr fun q hq => decide_eq_true (hfits q hq),hparagraphs] at hflat
  split at hpage
  · next page hread =>
    obtain ⟨c,hnext⟩ := Option.isSome_iff_exists.mp hpage
    refine ⟨store,a,b,page,c,hopen,ha,hb,⟨pages,parts,hfollows,hshows,hflat⟩,hread,hnext,?_⟩
    apply hreject none page c hread hnext store sampleDisk (sampleId 'b') b hb
    · intro h
      cases h.2.1
    · intro n hdigest
      rw [sample_hmac hmanifest _ (.inl rfl),sample_hmac hmanifest _ (.inr rfl)] at hdigest
      exact absurd hdigest (by decide)
  · cases hpage

/-- A document of which the reader delivers no page, because a line is longer than a page. -/
theorem paragraph_too_large : ∃ store a,
    openStore sampleLibrary (sampleSettings 1) sampleDisk = .ok store ∧
    load sampleLibrary store sampleDisk (sampleId 'a') = .ok a ∧ a.paragraphs = [['k'],['l']] ∧
    ∀ pages e, Follows (readSync sampleLibrary store sampleDisk (sampleId 'a'))
      (·.value.nextCursor) none pages e → pages = [] := by
  have hreads : sampleReads 1 (· == [['k'],['l']]) (fun page => match page with
      | .ok _ => false
      | .error e => e == "paragraph_too_large") = true := by decide +kernel
  obtain ⟨store,a,-,-,hopen,ha,-,-,-,-,hparagraphs,hpage⟩ := sampleReads_true hreads
  refine ⟨store,a,hopen,ha,beq_iff_eq.mp hparagraphs,fun pages e hfollows => ?_⟩
  split at hpage
  · cases hpage
  · next code hread => exact (follows_unique hfollows (.refused hread)).1

end LawyerAgent.LegalDocuments
