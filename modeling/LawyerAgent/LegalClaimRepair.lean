import LawyerAgent.HistoryCursors
import LawyerAgent.LegalClaimParse

/-!
# Claims in a fence and in prose

The JSON of a list of claims is parsed back into the claims, also from a
markdown fence, and from prose whose own brackets do not make the whole text a
JSON document.
-/

set_option autoImplicit false

namespace LawyerAgent.LegalClaimRepair
open Common LegalClaimParse
open PythonText (isSpace strip)
open PythonJson (PyChar PyText Value plainText keyIs get)
open JsonLoads (hexDigit isBlank skip readValue nesting itemsNesting fieldsNesting)
open JsonTexts (Blanks Spells SpellsFields)
open JsonDocuments (Interpreter)
open JsonDecoding (loads textual itemsTextual fieldsTextual)
open RejoinedLines (endsLine splitlines joinLines Rejoined)
open LegalClaims (fence rstrip braced ofInt)
open DatasetFacts (asciiString asciiString_text)
open HistoryCursors (dumpsTexts)
open Envelope (digit digits uuidText)
open Datetimes (digits_length digits_mem)
open CanonicalJson (hexValue)
open WireEnvelope (uuidString)
open EnvelopeDelivery (hexValue_digits uuidString_digits)

structure TextClaim where
  text : List Char
  evidenceIds : List UUID7
  written : strip text ≠ []
  bound : evidenceIds ≠ []
  unique : evidenceIds.Nodup

def claimValue (c : TextClaim) : Value :=
  .dict [(.str textKey,.str (plainText c.text)),
    (.str evidenceKey,.list (c.evidenceIds.map fun id => .str (plainText (uuidText id))))]

def claimsValue (claims : List TextClaim) : Value :=
  .dict [(.str claimsKey,.list (claims.map claimValue))]

structure Within (limits : Limits) (claims : List TextClaim) : Prop where
  count : claims.length ≤ limits.maxClaims
  texts : ∀ c ∈ claims, c.text.length ≤ limits.maxTextChars
  evidence : ∀ c ∈ claims, c.evidenceIds.length ≤ limits.maxEvidencePerClaim

theorem pyStrip_plain (text : List Char) : pyStrip (plainText text) = plainText (strip text) := by
  have hspace : (pySpace ∘ PyChar.scalar) = isSpace := rfl
  rw [pyStrip,strip,plainText,plainText,List.dropWhile_map,hspace,List.rdropWhile,List.rdropWhile,
    ← List.map_reverse,List.dropWhile_map,hspace,List.map_reverse]

def stripped (c : TextClaim) : LegalClaim where
  text := plainText (strip c.text)
  evidenceIds := c.evidenceIds
  written := by
    rw [← pyStrip_plain,pyStrip_idem,pyStrip_plain]
    exact fun h => c.written (List.map_eq_nil_iff.mp h)
  bound := c.bound
  unique := c.unique

theorem ofInt_int (u : UUID7) : ofInt u.int = u := by
  have hmarks : ∀ i < 62, (0x7 <<< 76 : BitVec 128).getLsbD i = false ∧
      (0b10 <<< 62 : BitVec 128).getLsbD i = false := by decide
  have hmiddle : ∀ i < 12, (0x7 <<< 76 : BitVec 128).getLsbD (64+i) = false ∧
      (0b10 <<< 62 : BitVec 128).getLsbD (64+i) = false := by decide
  have hhigh : ∀ i < 48, (0x7 <<< 76 : BitVec 128).getLsbD (80+i) = false ∧
      (0b10 <<< 62 : BitVec 128).getLsbD (80+i) = false := by decide
  cases u with
  | mk timestamp randomA randomB =>
    simp only [ofInt,UUID7.int,UUID7.mk.injEq]
    refine ⟨?_,?_,?_⟩
    · apply BitVec.eq_of_getLsbD_eq
      intro i hi
      have hfar : randomA.getLsbD (80+i-64) = false ∧ randomB.getLsbD (80+i) = false :=
        ⟨BitVec.getLsbD_of_ge _ _ (by omega),BitVec.getLsbD_of_ge _ _ (by omega)⟩
      rw [BitVec.getLsbD_extractLsb']
      simp only [BitVec.getLsbD_or,hhigh i hi,BitVec.getLsbD_shiftLeft,BitVec.getLsbD_setWidth,hfar]
      simp [hi,show i < 128 by omega,show 80+i < 128 by omega]
    · apply BitVec.eq_of_getLsbD_eq
      intro i hi
      have hfar : randomB.getLsbD (64+i) = false := BitVec.getLsbD_of_ge _ _ (by omega)
      rw [BitVec.getLsbD_extractLsb']
      simp only [BitVec.getLsbD_or,hmiddle i hi,BitVec.getLsbD_shiftLeft,BitVec.getLsbD_setWidth,
        hfar]
      simp [hi,show i < 128 by omega,show 64+i < 128 by omega,show 64+i < 80 by omega]
    · apply BitVec.eq_of_getLsbD_eq
      intro i hi
      rw [BitVec.getLsbD_extractLsb']
      simp only [Nat.zero_add,BitVec.getLsbD_or,hmarks i hi,BitVec.getLsbD_shiftLeft,
        BitVec.getLsbD_setWidth]
      simp [hi,show i < 128 by omega,show i < 80 by omega,show i < 64 by omega]

theorem digit_cases : ∀ k < 16, hexDigit (digit k) = some k ∧ digit k ≠ '-' ∧ digit k ≠ 'u' ∧
    digit k ≠ '_' ∧ digit k ≠ '+' ∧ digit k ≠ 'x' ∧ digit k ≠ 'X' ∧ (digit k).toNat < 128 ∧
    isSpace (digit k) = false ∧ LawyerAgent.CanonicalJson.hexDigits.idxOf (digit k) = k ∧
    isBrace (.scalar (digit k)) = false := by
  decide

theorem removeWord_absent {word : PyText} {c : PyChar} (hword : word.head? = some c)
    {text : PyText} (h : c ∉ text) : removeWord word 0 text = text := by
  induction text with
  | nil => rfl
  | cons d text ih =>
    have hd : c ≠ d := List.ne_of_not_mem_cons h
    have htext : c ∉ text := List.not_mem_of_not_mem_cons h
    have hprefix : ¬word.isPrefixOf (d::text) = true := by
      intro hp
      obtain ⟨tail,htail⟩ := List.isPrefixOf_iff_prefix.mp hp
      cases word with
      | nil => cases hword
      | cons e word =>
        rw [List.head?_cons,Option.some.injEq] at hword
        rw [List.cons_append,List.cons.injEq] at htail
        exact hd (hword.symm.trans htail.1)
    rw [removeWord,if_neg hprefix,ih htext]

variable {text json : List Char} {claims : List TextClaim} {c : Char} {p : Char → Bool}

theorem readHexDigits_digits (h : ∀ c ∈ text, ∃ k < 16, c = digit k) (hne : text ≠ []) (value : ℕ) :
    readHexDigits value text =
      some (text.foldl (fun n c => n*16+LawyerAgent.CanonicalJson.hexDigits.idxOf c) value) := by
  induction text generalizing value with
  | nil => exact absurd rfl hne
  | cons c text ih =>
    obtain ⟨⟨k,hk,rfl⟩,htext⟩ := List.forall_mem_cons.mp h
    obtain ⟨hdigit,-,-,-,-,-,-,-,-,hindex,-⟩ := digit_cases k hk
    rw [List.foldl_cons,hindex]
    cases text with
    | nil =>
      rw [readHexDigits,hdigit]
      rfl
    | cons d text =>
      obtain ⟨⟨m,hm,rfl⟩,-⟩ := List.forall_mem_cons.mp htext
      have hline := (digit_cases m hm).2.2.2.1
      rw [← ih htext (List.cons_ne_nil _ _),readHexDigits,hdigit,Option.bind_some]
      split
      · rename_i heq
        cases heq
      · rename_i heq
        exact absurd (List.cons.inj heq).1 hline
      · rfl

theorem dropWhile_none {α : Type} {p : α → Bool} {l : List α} (h : ∀ a ∈ l, p a = false) :
    l.dropWhile p = l ∧ l.rdropWhile p = l := by
  constructor
  · cases l with
    | nil => rfl
    | cons a l =>
      exact List.dropWhile_cons_of_neg (by rw [h a List.mem_cons_self]; exact Bool.false_ne_true)
  · apply List.rdropWhile_eq_self_iff.mpr
    intro hl hlast
    rw [h _ (List.getLast_mem hl)] at hlast
    cases hlast

theorem intBase16_digits (h : ∀ c ∈ text, ∃ k < 16, c = digit k) (hne : text ≠ []) :
    intBase16 (plainText text) = some (hexValue text) := by
  have hascii : (plainText text).mapM asciiOf = some text := by
    clear hne
    induction text with
    | nil => rfl
    | cons c text ih =>
      obtain ⟨⟨k,hk,rfl⟩,htext⟩ := List.forall_mem_cons.mp h
      have hc : asciiOf (.scalar (digit k)) = some (digit k) :=
        if_pos (digit_cases k hk).2.2.2.2.2.2.2.1
      rw [plainText,List.map_cons,List.mapM_cons,hc]
      change (plainText text).mapM asciiOf >>= _ = _
      rw [ih htext]
      rfl
  have hspace : ∀ c ∈ text, isSpace c = false := by
    intro c hc
    obtain ⟨k,hk,rfl⟩ := h c hc
    exact (digit_cases k hk).2.2.2.2.2.2.2.2.1
  have hstrip : strip text = text := by
    rw [strip,(dropWhile_none hspace).1,(dropWhile_none hspace).2]
  have hsign : dropSign text = text := by
    cases text with
    | nil => rfl
    | cons c text =>
      obtain ⟨k,hk,rfl⟩ := h c List.mem_cons_self
      have hplus := (digit_cases k hk).2.2.2.2.1
      unfold dropSign
      split
      · rename_i heq
        exact absurd (List.cons.inj heq).1 hplus
      · rfl
  have hbase : dropBase text = text := by
    unfold dropBase
    split
    · rename_i x rest
      obtain ⟨k,hk,hx⟩ := h x (by simp)
      obtain ⟨-,-,-,-,-,hlower,hupper,-⟩ := digit_cases k hk
      rw [if_neg (by rw [hx]; simp [hlower,hupper])]
    · rfl
  rw [intBase16,hascii,Option.bind_some,hstrip,hsign,hbase,readHexDigits_digits h hne]
  rfl

theorem uuidText_chars (u : UUID7) : ∀ c ∈ uuidText u, c = '-' ∨ ∃ k < 16, c = digit k := by
  have hdigits : ∀ c ∈ digits 16 32 u.int.toNat, ∃ k < 16, c = digit k :=
    fun c hc => digits_mem (by decide) hc
  intro c hc
  simp only [uuidText,List.mem_append,List.mem_cons] at hc
  rcases hc with (((hc | hc | hc) | hc | hc) | hc | hc) | hc | hc
  · exact Or.inr (hdigits c (List.mem_of_mem_take hc))
  · exact Or.inl hc
  · exact Or.inr (hdigits c (List.mem_of_mem_drop (List.mem_of_mem_take hc)))
  · exact Or.inl hc
  · exact Or.inr (hdigits c (List.mem_of_mem_drop (List.mem_of_mem_take hc)))
  · exact Or.inl hc
  · exact Or.inr (hdigits c (List.mem_of_mem_drop (List.mem_of_mem_take hc)))
  · exact Or.inl hc
  · exact Or.inr (hdigits c (List.mem_of_mem_drop hc))

theorem parseUuid_text (u : UUID7) : parseUuid (plainText (uuidText u)) = some u.int := by
  have hword : PyChar.scalar 'u' ∉ plainText (uuidText u) := by
    intro hmem
    obtain ⟨c,hc,heq⟩ := List.mem_map.mp hmem
    cases heq
    rcases uuidText_chars u 'u' hc with hdash | ⟨k,hk,hdigit⟩
    · exact absurd hdash (by decide)
    · exact (digit_cases k hk).2.2.1 hdigit.symm
  have hbrace : ∀ c ∈ plainText (uuidText u), isBrace c = false := by
    intro c hc
    obtain ⟨d,hd,rfl⟩ := List.mem_map.mp hc
    rcases uuidText_chars u d hd with rfl | ⟨k,hk,rfl⟩
    · rfl
    · exact (digit_cases k hk).2.2.2.2.2.2.2.2.2.2
  have hfilter : (plainText (uuidText u)).filter (fun c => c != .scalar '-') =
      plainText (digits 16 32 u.int.toNat) := by
    have hdash : ((fun c : PyChar => c != .scalar '-') ∘ PyChar.scalar) =
        fun c => decide (c ≠ '-') := by
      funext c
      rw [Bool.eq_iff_iff]
      simp only [Function.comp_apply,bne_iff_ne,decide_eq_true_eq,ne_eq,PyChar.scalar.injEq]
    have htext : uuidText u = uuidString u.int := rfl
    rw [plainText,List.filter_map,hdash,htext,uuidString_digits,plainText]
  have hlength : (plainText (digits 16 32 u.int.toNat)).length = 32 := by
    rw [plainText,List.length_map,digits_length]
  have hne : digits 16 32 u.int.toNat ≠ [] := by
    intro hnil
    have hempty := digits_length 16 32 u.int.toNat
    rw [hnil] at hempty
    cases hempty
  have hvalue := intBase16_digits (fun c hc => digits_mem (by decide) hc) hne
  rw [parseUuid,removeWord_absent rfl hword,removeWord_absent rfl hword,(dropWhile_none hbrace).1,
    (dropWhile_none hbrace).2,hfilter,if_pos hlength,hvalue,hexValue_digits u.int.isLt,
    Option.map_some,BitVec.ofNat_toNat,BitVec.setWidth_eq]

variable (limits : Limits)

theorem parseEvidenceIds_rendered (claimIndex : ℕ) (ids : List UUID7) :
    parseEvidenceIds claimIndex (ids.map fun id => .str (plainText (uuidText id))) = .ok ids := by
  induction ids with
  | nil => rfl
  | cons id ids ih =>
    have huuid : uuidOf (.str (plainText (uuidText id))) = some id.int := by
      rw [uuidOf,strOf,Option.bind_some,parseUuid_text]
    rw [List.map_cons,parseEvidenceIds,huuid]
    simp only [int_isUUID7,if_true,ih,ok_bind,ofInt_int]

theorem parseClaim_rendered (claimIndex : ℕ) (c : TextClaim)
    (htext : c.text.length ≤ limits.maxTextChars)
    (hids : c.evidenceIds.length ≤ limits.maxEvidencePerClaim) :
    parseClaim limits claimIndex (claimValue c) = .ok (stripped c) := by
  have hstrip : pyStrip (plainText c.text) ≠ [] := by
    rw [pyStrip_plain]
    exact fun h => c.written (List.map_eq_nil_iff.mp h)
  have hlong : ¬limits.maxTextChars < (plainText c.text).length := by
    rw [plainText,List.length_map]
    exact not_lt.mpr htext
  have hclaimText : claimText limits claimIndex [(.str textKey,.str (plainText c.text)),
      (.str evidenceKey,.list (c.evidenceIds.map fun id => .str (plainText (uuidText id))))] =
      .ok (plainText c.text) := by
    have hget : get [(.str textKey,.str (plainText c.text)),
        (.str evidenceKey,.list (c.evidenceIds.map fun id => .str (plainText (uuidText id))))]
        textKey = .str (plainText c.text) := rfl
    rw [claimText,hget]
    simp only [if_neg hstrip,if_neg hlong]
  have hrawIds : rawEvidenceIds limits claimIndex [(.str textKey,.str (plainText c.text)),
      (.str evidenceKey,.list (c.evidenceIds.map fun id => .str (plainText (uuidText id))))] =
      .ok (c.evidenceIds.map fun id => .str (plainText (uuidText id))) := by
    have hget : get [(.str textKey,.str (plainText c.text)),
        (.str evidenceKey,.list (c.evidenceIds.map fun id => .str (plainText (uuidText id))))]
        evidenceKey = .list (c.evidenceIds.map fun id => .str (plainText (uuidText id))) := rfl
    have hempty : ¬(c.evidenceIds.map fun id => Value.str (plainText (uuidText id))).isEmpty =
        true := by simpa using c.bound
    have hmany : ¬limits.maxEvidencePerClaim <
        (c.evidenceIds.map fun id => Value.str (plainText (uuidText id))).length := by
      rw [List.length_map]
      exact not_lt.mpr hids
    rw [rawEvidenceIds,hget]
    simp only [if_neg hempty,if_neg hmany]
  have hkeys : ¬([(.str textKey,.str (plainText c.text)),
      (.str evidenceKey,.list (c.evidenceIds.map fun id => .str (plainText (uuidText id))))] :
      List (Value × Value)).any (fun item => !(keyIs textKey item || keyIs evidenceKey item)) =
      true := by
    simp [keyIs]
  obtain ⟨claim,hclaim,hct,hci⟩ := newClaim_checked hstrip c.bound c.unique
  rw [claimValue,parseClaim,if_neg hkeys,hclaimText,ok_bind,hrawIds,ok_bind,
    parseEvidenceIds_rendered,ok_bind,if_pos c.unique,hclaim]
  have hsame : claim = stripped c := by
    cases claim
    simp only [stripped,LegalClaim.mk.injEq]
    exact ⟨hct.trans (pyStrip_plain c.text),hci⟩
  rw [hsame]

theorem parseClaims_rendered (claimIndex : ℕ) (claims : List TextClaim)
    (h : ∀ c ∈ claims, c.text.length ≤ limits.maxTextChars ∧
      c.evidenceIds.length ≤ limits.maxEvidencePerClaim) :
    parseClaims limits claimIndex (claims.map claimValue) = .ok (claims.map stripped) := by
  induction claims generalizing claimIndex with
  | nil => rfl
  | cons c claims ih =>
    obtain ⟨hc,hclaims⟩ := List.forall_mem_cons.mp h
    rw [List.map_cons,parseClaims,parseClaim_rendered limits claimIndex c hc.1 hc.2,ok_bind,
      ih _ hclaims]
    rfl

theorem parsePayload_rendered (h : Within limits claims) :
    parsePayload limits (some (claimsValue claims)) = .ok (claims.map stripped) := by
  have hget : get [(.str claimsKey,.list (claims.map claimValue))] claimsKey =
      .list (claims.map claimValue) := rfl
  have hcount : ¬limits.maxClaims < (claims.map claimValue).length := by
    rw [List.length_map]
    exact not_lt.mpr h.count
  rw [claimsValue,parsePayload,hget]
  simp only [if_neg hcount]
  exact parseClaims_rendered limits 0 claims fun c hc => ⟨h.texts c hc,h.evidence c hc⟩

theorem fields_last {items : List (Value × Value)} (h : SpellsFields items text) :
    ∃ front, text = front++['\x7d'] := by
  induction items generalizing text with
  | nil =>
    rw [SpellsFields] at h
    exact ⟨[],h⟩
  | cons item items ih =>
    obtain ⟨key,value⟩ := item
    rw [SpellsFields] at h
    obtain ⟨name,label,gap,after,part,final,body,-,-,-,-,-,-,rfl,hbody⟩ := h
    have hlast : ∃ front, body = front++['\x7d'] := by
      rcases hbody with ⟨-,rfl⟩ | ⟨-,next,rest,-,hrest,rfl⟩
      · exact ⟨[],rfl⟩
      · obtain ⟨front,rfl⟩ := ih hrest
        exact ⟨','::next++front,by simp⟩
    obtain ⟨front,rfl⟩ := hlast
    exact ⟨'"'::label++gap++ ':'::after++part++final++front,by simp⟩

theorem json_shape (h : Spells (claimsValue claims) json) : ∃ m, json = '\x7b'::(m++['\x7d']) := by
  rw [claimsValue,Spells] at h
  obtain ⟨gap,body,-,-,hbody,rfl⟩ := h
  obtain ⟨front,rfl⟩ := fields_last hbody
  exact ⟨gap++front,by simp⟩

theorem strings_textual (texts : List PyText) : itemsTextual (texts.map Value.str) = true := by
  induction texts with
  | nil => rfl
  | cons text texts ih =>
    rw [List.map_cons,itemsTextual,ih]
    rfl

theorem claims_textual (claims : List TextClaim) : textual (claimsValue claims) = true := by
  have hitems : itemsTextual (claims.map claimValue) = true := by
    induction claims with
    | nil => rfl
    | cons c claims ih =>
      have hids := strings_textual (c.evidenceIds.map fun id => plainText (uuidText id))
      rw [List.map_map] at hids
      rw [List.map_cons,itemsTextual,ih,Bool.and_true,claimValue,textual,fieldsTextual,
        fieldsTextual,fieldsTextual,textual,textual,Bool.true_and,Bool.and_true]
      exact hids
  rw [claimsValue,textual,fieldsTextual,fieldsTextual,textual,hitems]
  rfl

theorem claims_nesting (claims : List TextClaim) : nesting (claimsValue claims) ≤ 4 := by
  have hitems : itemsNesting (claims.map claimValue) ≤ 2 := by
    induction claims with
    | nil => exact Nat.zero_le 2
    | cons c claims ih =>
      have hids := HistoryCursors.texts_nesting (c.evidenceIds.map uuidText)
      rw [List.map_map] at hids
      have htext : nesting (.str (plainText c.text)) = 0 := rfl
      have hclaim : nesting (claimValue c) = 2 := by
        rw [claimValue,nesting,fieldsNesting,fieldsNesting,fieldsNesting,htext,nesting]
        change max 0 (max (itemsNesting (c.evidenceIds.map
          ((fun text => Value.str (plainText text)) ∘ uuidText))+1) 0)+1 = 2
        rw [hids]
        rfl
      rw [List.map_cons,itemsNesting,hclaim]
      omega
  rw [claimsValue,nesting,fieldsNesting,fieldsNesting,nesting]
  omega

variable (python : Interpreter)

theorem frames_enough (claims : List TextClaim) :
    nesting (claimsValue claims) ≤ python.frames := by
  have hnesting := claims_nesting claims
  have henough : 100 ≤ python.frames := python.enough
  omega

theorem loads_json (h : Spells (claimsValue claims) json) :
    loads python.frames json = .ok (claimsValue claims) :=
  JsonDecoding.loads_text h (claims_textual claims) (frames_enough python claims)

theorem loads_behind (h : Spells (claimsValue claims) json) (after : List Char) :
    loads python.frames (json++after) = .ok (claimsValue claims) ∨
      loads python.frames (json++after) = .error .malformed := by
  obtain ⟨m,hm⟩ := json_shape h
  have hread : ∀ fuel, json.length ≤ fuel →
      readValue (fuel+1) (json++after) = some (claimsValue claims,after) := by
    intro fuel hfuel
    rw [claimsValue,Spells] at h
    obtain ⟨gap,body,hgap,honce,hbody,rfl⟩ := h
    rw [List.length_append,List.length_cons] at hfuel
    have hshort : body.length < fuel := by omega
    obtain ⟨hskip,hhead⟩ := JsonTexts.fields_head (List.cons_ne_nil _ _) hbody after
    obtain ⟨pairs,hpairs,heq⟩ := @JsonTexts.readFields_spells _ body after fuel
      (List.cons_ne_nil _ _) hbody hshort
    rw [heq] at honce
    rw [List.cons_append,List.cons_append,List.append_assoc,readValue,if_neg (by decide),
      if_neg (by decide),if_pos rfl,JsonTexts.skip_gap hgap,hskip,if_neg hhead,hpairs,
      Option.bind_some,JsonTexts.uniqueObject_dict honce,claimsValue,heq]
    rfl
  have hmark : (json++after).head? ≠ some (Char.ofNat 0xfeff) := by
    rw [hm,List.cons_append,List.head?_cons]
    decide
  have hskip : skip (json++after) = json++after := by
    rw [hm,List.cons_append]
    exact RejoinedLines.token_skip (by decide) _
  have hscan := (JsonDecoding.scan_read (json.length+1)).1 python.frames
    (2*(json++after).length+2) _ _ _ (by rw [List.length_append]; omega)
    (hread json.length le_rfl) (claims_textual claims) (frames_enough python claims)
  rw [loads,JsonDecoding.loadsWith,if_neg hmark,hskip,hscan]
  by_cases hblank : skip after = []
  · exact Or.inl (if_pos hblank)
  · exact Or.inr (if_neg hblank)

theorem dropWhile_stop (hc : p c = false) (front rest : List Char) :
    (front++c::rest).dropWhile p = front.dropWhile p++c::rest := by
  have hne : ¬p c = true := by rw [hc]; exact Bool.false_ne_true
  rw [List.dropWhile_append,List.dropWhile_cons_of_neg hne]
  by_cases hfront : (front.dropWhile p).isEmpty = true
  · rw [if_pos hfront,List.isEmpty_iff.mp hfront,List.nil_append]
  · rw [if_neg hfront]

theorem rdropWhile_stop (hc : p c = false) (front back : List Char) :
    (front++c::back).rdropWhile p = front++c::back.rdropWhile p := by
  rw [List.rdropWhile,List.reverse_append,List.reverse_cons,List.append_assoc,
    List.singleton_append,dropWhile_stop hc,List.reverse_append,List.reverse_cons,
    List.reverse_reverse,List.rdropWhile]
  simp

theorem dropWhile_every {l : List Char} (h : ∀ c ∈ l, p c = true) :
    l.dropWhile p = [] ∧ l.rdropWhile p = [] := by
  constructor
  · exact List.dropWhile_eq_nil_iff.mpr h
  · exact List.rdropWhile_eq_nil_iff.mpr h

/-- The blanks before and after go, what is around the document stays. -/
theorem strip_around (before m after : List Char) :
    strip (before++ '\x7b'::(m++['\x7d'])++after) =
      before.dropWhile isSpace++ '\x7b'::(m++['\x7d'])++after.rdropWhile isSpace := by
  have hend := rdropWhile_stop (p := isSpace) (c := '\x7d') (by decide)
    (before.dropWhile isSpace++ '\x7b'::m) after
  simp only [List.append_assoc,List.cons_append,List.nil_append] at hend ⊢
  rw [strip,dropWhile_stop (by decide),hend]

theorem braced_around {before after : List Char} (hbefore : '\x7b' ∉ before)
    (hafter : '\x7d' ∉ after) (m : List Char) :
    braced (before++ '\x7b'::(m++['\x7d'])++after) = some ('\x7b'::(m++['\x7d'])) := by
  have hfront : before.dropWhile (· != '\x7b') = [] :=
    (dropWhile_every fun c hc => bne_iff_ne.mpr (ne_of_mem_of_not_mem hc hbefore)).1
  have hback : after.rdropWhile (· != '\x7d') = [] :=
    (dropWhile_every fun c hc => bne_iff_ne.mpr (ne_of_mem_of_not_mem hc hafter)).2
  have hstart := dropWhile_stop (p := (· != '\x7b')) (c := '\x7b') (by decide) before
    (m++ '\x7d'::after)
  have hend := rdropWhile_stop (p := (· != '\x7d')) (c := '\x7d') (by decide) ('\x7b'::m) after
  simp only [List.append_assoc,List.cons_append,List.nil_append,hfront,hback] at hstart hend ⊢
  rw [braced,hstart,hend]
  rfl

theorem mem_dropWhile {l : List Char} (h : c ∉ l) :
    c ∉ l.dropWhile p ∧ c ∉ l.rdropWhile p :=
  ⟨fun hmem => h ((List.dropWhile_sublist p).subset hmem),
    fun hmem => h ((List.rdropWhile_prefix p l).subset hmem)⟩

theorem parse_ok {limits : Limits} (hpositive : limits.Positive) (hwithin : Within limits claims)
    (hwritten : strip text ≠ [])
    (h : parseJsonOnce python (candidates text) = .ok (some (claimsValue claims))) :
    parseClaimsText limits python text = .ok (claims.map stripped) := by
  rw [parseClaimsText,if_neg hwritten,checkLimits_positive limits hpositive,ok_bind,h,ok_bind,
    parsePayload_rendered limits hwithin]

theorem once_document {V : Value} (hjson : loads python.frames json = .ok V)
    {texts : List (List Char)}
    (h : ∀ text ∈ texts, loads python.frames text = .ok V ∨ loads python.frames text = .error
      .malformed) :
    parseJsonOnce python (texts++[json]) = .ok (some V) := by
  induction texts with
  | nil =>
    rw [List.nil_append,parseJsonOnce,hjson]
  | cons text texts ih =>
    obtain ⟨htext,htexts⟩ := List.forall_mem_cons.mp h
    rw [List.cons_append,parseJsonOnce]
    rcases htext with hok | hbad
    · rw [hok]
    · rw [hbad]
      exact ih htexts

def fenceText (info json : List Char) : List Char := fence++info++ '\n'::(json++ '\n'::fence)

structure Info (info : List Char) : Prop where
  line : ∀ c ∈ info, endsLine c = false
  opening : '\x7b' ∉ info

theorem fence_malformed (rest : List Char) :
    loads python.frames (fence++rest) = .error .malformed := by
  have hmark : (fence++rest).head? ≠ some (Char.ofNat 0xfeff) := by
    rw [fence,List.cons_append,List.head?_cons]
    decide
  have hskip : skip (fence++rest) = fence++rest := RejoinedLines.token_skip (by decide) _
  have hscan : ∀ fuel, JsonDecoding.scanValue python.frames (fuel+1) (fence++rest) =
      .error .malformed := by
    intro fuel
    rw [fence,List.cons_append,JsonDecoding.scanValue,if_neg (by decide),if_neg (by decide),
      if_neg (by decide)]
    rfl
  rw [loads,JsonDecoding.loadsWith,if_neg hmark,hskip,hscan]
  rfl

theorem fence_end :
    fence.isSuffixOf (text++ '\n'::fence) = true ∧ (text++ '\n'::fence).take
      ((text++ '\n'::fence).length-3) = text++['\n'] := by
  have heq : text++ '\n'::fence = (text++['\n'])++fence := by simp
  constructor
  · rw [heq]
    exact List.isSuffixOf_iff_suffix.mpr ⟨_,rfl⟩
  · have hlength : ((text++['\n'])++fence).length-3 = (text++['\n']).length := by
      rw [List.length_append]
      exact Nat.add_sub_cancel _ 3
    rw [heq,hlength,List.take_left]

theorem fenced_document {info : List Char} (hinfo : Info info) (m : List Char) :
    ∃ inner, fenced (fenceText info ('\x7b'::(m++['\x7d']))) = some inner ∧
      Rejoined ('\x7b'::(m++['\x7d'])) inner := by
  have htail : joinLines (splitlines ('\x7d':: '\n'::fence)) = '\x7d':: '\n'::fence := by decide
  obtain ⟨text,hjoin,hrejoined⟩ := RejoinedLines.joined_rejoined ('\x7b'::m) htail (by decide)
    (by decide)
  obtain ⟨n,rfl,hn⟩ := RejoinedLines.rejoined_cons hrejoined (by decide)
  have hline : ∀ c ∈ fence++info, endsLine c = false := by
    intro c hc
    rcases List.mem_append.mp hc with hmark | hmem
    · have hsame : c = '\x60' := by simpa [fence] using hmark
      rw [hsame]
      decide
    · exact hinfo.line c hmem
  have hrest : '\x7b'::(m++['\x7d'])++ '\n'::fence = '\x7b'::m++ '\x7d':: '\n'::fence := by simp
  have hsplit : splitlines (fenceText info ('\x7b'::(m++['\x7d']))) =
      (fence++info)::splitlines ('\x7b'::m++ '\x7d':: '\n'::fence) := by
    rw [fenceText,hrest,RejoinedLines.splitlines_line hline]
  have hwritten : '\x7b'::m++ '\x7d':: '\n'::fence ≠ [] := List.cons_ne_nil _ _
  obtain ⟨line,lines,hlines⟩ :=
    List.exists_cons_of_ne_nil (RejoinedLines.splitlines_nonempty hwritten)
  have hprefix : fence.isPrefixOf (fenceText info ('\x7b'::(m++['\x7d']))) = true := by
    rw [fenceText,List.append_assoc]
    exact List.isPrefixOf_iff_prefix.mpr ⟨_,rfl⟩
  have hinner : '\x7b'::n++ '\x7d':: '\n'::fence = '\x7b'::(n++['\x7d'])++ '\n'::fence := by
    simp
  have hright : rstrip ('\x7b'::n++ '\x7d':: '\n'::fence) =
      '\x7b'::(n++['\x7d'])++ '\n'::fence := by
    have hstop := rdropWhile_stop (p := isSpace) (c := '\x60') (by decide)
      ('\x7b'::(n++['\x7d'])++['\n','\x60','\x60']) []
    rw [rstrip,hinner]
    simpa [fence] using hstop
  have hstrip : strip ('\x7b'::(n++['\x7d'])++['\n']) = '\x7b'::(n++['\x7d']) := by
    have haround := strip_around [] n ['\n']
    have hback : ['\n'].rdropWhile isSpace = [] := by decide
    rw [hback,List.append_nil] at haround
    exact haround
  refine ⟨'\x7b'::(n++['\x7d']),?_,?_⟩
  · rw [fenced,if_pos hprefix,hsplit,hlines]
    change some (strip (if fence.isSuffixOf (rstrip (joinLines (line::lines))) then
      (rstrip (joinLines (line::lines))).take ((rstrip (joinLines (line::lines))).length-3)
      else joinLines (line::lines))) = _
    rw [← hlines,hjoin,hright,if_pos fence_end.1,fence_end.2,hstrip]
  · exact .same (by decide) (RejoinedLines.rejoined_append hn (.same (by decide) .nil))

theorem parse_fence {limits : Limits} (hpositive : limits.Positive) (hwithin : Within limits claims)
    (h : Spells (claimsValue claims) json) {info : List Char} (hinfo : Info info) :
    parseClaimsText limits python (fenceText info json) = .ok (claims.map stripped) := by
  have hjson := loads_json python h
  obtain ⟨m,rfl⟩ := json_shape h
  obtain ⟨inner,hfenced,hinner⟩ := fenced_document hinfo m
  have hstrip : strip (fenceText info ('\x7b'::(m++['\x7d']))) =
      fenceText info ('\x7b'::(m++['\x7d'])) := by
    have haround := strip_around (fence++info++['\n']) m ('\n'::fence)
    have hfront : (fence++info++['\n']).dropWhile isSpace = fence++info++['\n'] :=
      List.dropWhile_cons_of_neg (by decide)
    have hback : ('\n'::fence).rdropWhile isSpace = '\n'::fence := by decide
    have htext : fence++info++['\n']++ '\x7b'::(m++['\x7d'])++ '\n'::fence =
        fenceText info ('\x7b'::(m++['\x7d'])) := by
      rw [fenceText]
      simp
    rw [hfront,hback,htext] at haround
    exact haround
  have hbraced : braced (fenceText info ('\x7b'::(m++['\x7d']))) =
      some ('\x7b'::(m++['\x7d'])) := by
    have hopening : '\x7b' ∉ fence++info++['\n'] := by
      have hinfo := hinfo.opening
      simpa [fence] using hinfo
    have hclosing : '\x7d' ∉ '\n'::fence := by decide
    have haround := braced_around hopening hclosing m
    have htext : fence++info++['\n']++ '\x7b'::(m++['\x7d'])++ '\n'::fence =
        fenceText info ('\x7b'::(m++['\x7d'])) := by
      rw [fenceText]
      simp
    rw [htext] at haround
    exact haround
  apply parse_ok python hpositive hwithin
  · rw [hstrip,fenceText,fence]
    exact List.cons_ne_nil _ _
  · rw [candidates,strictCandidates,hstrip,hfenced,hbraced]
    apply once_document python hjson
    intro text htext
    rcases List.mem_cons.mp htext with rfl | hmem
    · rw [fenceText,List.append_assoc]
      exact Or.inr (fence_malformed python _)
    · obtain rfl := List.mem_singleton.mp hmem
      exact RejoinedLines.loads_rejoined h (claims_textual claims) (frames_enough python claims)
        hinner

/-- Text around a document, without braces between the document and its own. -/
structure Prose (before after : List Char) : Prop where
  opening : '\x7b' ∉ before
  closing : '\x7d' ∉ after
  unfenced : ¬fence.isPrefixOf (before.dropWhile isSpace) = true

theorem prefix_before {word front rest : List Char} (hc : c ∉ word) (h : word <+: front++c::rest) :
    word <+: front := by
  induction word generalizing front with
  | nil => exact List.nil_prefix
  | cons d word ih =>
    cases front with
    | nil =>
      have hd := (List.cons_prefix_cons.mp h).1
      exact absurd hd (Ne.symm (List.ne_of_not_mem_cons hc))
    | cons e front =>
      obtain ⟨rfl,hword⟩ := List.cons_prefix_cons.mp h
      exact List.cons_prefix_cons.mpr ⟨rfl,ih (List.not_mem_of_not_mem_cons hc) hword⟩

theorem prose_candidates {before after : List Char} (h : Prose before after) (m : List Char) :
    strip (before++ '\x7b'::(m++['\x7d'])++after) ≠ [] ∧
    candidates (before++ '\x7b'::(m++['\x7d'])++after) =
      [strip (before++ '\x7b'::(m++['\x7d'])++after)]++['\x7b'::(m++['\x7d'])] := by
  have hstrip := strip_around before m after
  have hfenced : fenced (strip (before++ '\x7b'::(m++['\x7d'])++after)) = none := by
    rw [hstrip,List.append_assoc,List.cons_append,fenced,if_neg]
    intro hp
    have hprefix := prefix_before (by decide) (List.isPrefixOf_iff_prefix.mp hp)
    exact h.unfenced (List.isPrefixOf_iff_prefix.mpr hprefix)
  have hbraced : braced (strip (before++ '\x7b'::(m++['\x7d'])++after)) =
      some ('\x7b'::(m++['\x7d'])) := by
    rw [hstrip]
    exact braced_around (mem_dropWhile h.opening).1 (mem_dropWhile h.closing).2 m
  constructor
  · rw [hstrip]
    simp
  · rw [candidates,strictCandidates,hfenced,hbraced]
    rfl

theorem scanConstant_mem {text rest : List Char} {names : List (String × Value)} {value : Value}
    (h : JsonDecoding.scanConstant text names = some (value,rest)) :
    value ∈ names.map Prod.snd := by
  induction names with
  | nil => cases h
  | cons name names ih =>
    unfold JsonDecoding.scanConstant at h
    cases hconsume : JsonText.consume name.1.toList text with
    | none =>
      rw [hconsume] at h
      exact List.mem_cons_of_mem _ (ih h)
    | some left =>
      rw [hconsume] at h
      cases h
      exact List.mem_cons_self

theorem scanScalar_atom {text rest : List Char} {fields : List (Value × Value)} :
    JsonDecoding.scanScalar text ≠ .ok (.dict fields,rest) := by
  intro h
  unfold JsonDecoding.scanScalar at h
  cases hconstant : JsonDecoding.scanConstant text JsonDecoding.constants with
  | none =>
    rw [hconstant] at h
    obtain ⟨whole,-,hwhole⟩ := JsonDecoding.bind_ok.mp h
    simp only at hwhole
    split_ifs at hwhole <;> cases hwhole
  | some q =>
    rw [hconstant] at h
    cases h
    have hmem := scanConstant_mem hconstant
    simp [JsonDecoding.constants] at hmem

theorem loads_object {fields : List (Value × Value)} (hc : isSpace c = false)
    (h : loads python.frames (c::text) = .ok (.dict fields)) :
    c = '\x7b' := by
  have hblank : isBlank c = false := by
    by_contra hb
    have hmem : c ∈ [' ','\t','\n','\r'] := of_decide_eq_true (Bool.eq_true_of_not_eq_false hb)
    simp only [List.mem_cons,List.not_mem_nil,or_false] at hmem
    rcases hmem with rfl | rfl | rfl | rfl <;> exact absurd hc (by decide)
  by_cases hmark : (c::text).head? = some (Char.ofNat 0xfeff)
  · rw [loads,JsonDecoding.loadsWith,if_pos hmark] at h
    cases h
  rw [loads,JsonDecoding.loadsWith,if_neg hmark,RejoinedLines.token_skip hblank] at h
  obtain ⟨⟨value,rest⟩,hscan,hvalue⟩ := JsonDecoding.bind_ok.mp h
  have heq : value = .dict fields := by
    simp only at hvalue
    split_ifs at hvalue
    cases hvalue
    rfl
  rw [heq,JsonDecoding.scanValue] at hscan
  by_cases hquote : c = '"'
  · rw [if_pos hquote] at hscan
    obtain ⟨p,-,hp⟩ := Option.map_eq_some_iff.mp (JsonDecoding.expect_ok.mp hscan)
    cases hp
  by_cases hbracket : c = '['
  · rw [if_neg hquote,if_pos hbracket] at hscan
    split_ifs at hscan
    · cases hscan
    · obtain ⟨p,-,hp⟩ := JsonDecoding.map_ok.mp hscan
      cases hp
  by_contra hbrace
  rw [if_neg hquote,if_neg hbracket,if_neg hbrace] at hscan
  exact scanScalar_atom hscan

/-- In prose the document is found exactly when the whole text is no JSON document
of its own. -/
theorem parse_prose_iff {limits : Limits} (hpositive : limits.Positive)
    (hwithin : Within limits claims) (h : Spells (claimsValue claims) json)
    {before after : List Char} (hprose : Prose before after) :
    parseClaimsText limits python (before++json++after) = .ok (claims.map stripped) ↔
      (∀ c ∈ before, isSpace c = true) ∨
        loads python.frames (strip (before++json++after)) = .error .malformed := by
  have hjson := loads_json python h
  obtain ⟨m,rfl⟩ := json_shape h
  obtain ⟨hwritten,hcandidates⟩ := prose_candidates hprose m
  constructor
  · intro hparse
    by_contra hneither
    rw [not_or] at hneither
    obtain ⟨c,front,hfront⟩ : ∃ c front, before.dropWhile isSpace = c::front := by
      apply List.exists_cons_of_ne_nil
      intro hnil
      exact hneither.1 (List.dropWhile_eq_nil_iff.mp hnil)
    have hspace : isSpace c = false := by
      have hnot := List.head?_dropWhile_not isSpace before
      rw [hfront] at hnot
      exact hnot
    have hopening : c ≠ '\x7b' := by
      rintro rfl
      have hmem := (mem_dropWhile (p := isSpace) hprose.opening).1
      rw [hfront] at hmem
      exact hmem List.mem_cons_self
    have htext : strip (before++ '\x7b'::(m++['\x7d'])++after) =
        c::(front++ '\x7b'::(m++['\x7d'])++after.rdropWhile isSpace) := by
      rw [strip_around,hfront]
      rfl
    rw [parseClaimsText,if_neg hwritten,checkLimits_positive limits hpositive,ok_bind,
      hcandidates,List.singleton_append,parseJsonOnce] at hparse
    cases hloads : loads python.frames (strip (before++ '\x7b'::(m++['\x7d'])++after)) with
    | error e =>
      rw [hloads] at hparse
      cases e with
      | malformed => exact hneither.2 hloads
      | tooManyDigits => cases hparse
      | tooDeep => cases hparse
    | ok value =>
      rw [hloads] at hparse
      cases value with
      | dict fields =>
        rw [htext] at hloads
        exact hopening (loads_object python hspace hloads)
      | none => cases hparse
      | bool => cases hparse
      | int => cases hparse
      | float => cases hparse
      | str => cases hparse
      | list => cases hparse
      | tuple => cases hparse
      | other => cases hparse
  · intro hcondition
    apply parse_ok python hpositive hwithin hwritten
    rw [hcandidates]
    apply once_document python hjson
    intro text htext
    obtain rfl := List.mem_singleton.mp htext
    rcases hcondition with hblank | hmalformed
    · rw [strip_around,(dropWhile_every hblank).1]
      exact loads_behind python h _
    · exact Or.inr hmalformed

/-- `json.dumps` of a claim -/
def dumpsClaim (c : TextClaim) : List Char :=
  '\x7b'::(asciiString "text".toList++([':',' ']++(asciiString c.text++([',',' ']++
    (asciiString "evidence_ids".toList++([':',' ']++(dumpsTexts (c.evidenceIds.map uuidText)++
      ['\x7d'])))))))

def dumpsClaims (claims : List TextClaim) : List Char :=
  '\x7b'::(asciiString "claims".toList++([':',' ']++('['::(List.intercalate [',',' ']
    (claims.map dumpsClaim)++[']'])++['\x7d'])))

theorem claim_spelt (c : TextClaim) : Spells (claimValue c) (dumpsClaim c) := by
  have hblank : Blanks [' '] := by simp [Blanks,isBlank]
  have hnone : Blanks [] := by simp [Blanks]
  have htext : Spells (.str (plainText c.text)) (asciiString c.text) :=
    ⟨c.text,_,rfl,asciiString_text c.text,rfl⟩
  have hids : Spells (.list (c.evidenceIds.map fun id => .str (plainText (uuidText id))))
      (dumpsTexts (c.evidenceIds.map uuidText)) := by
    have hitems := HistoryCursors.texts_spelt (c.evidenceIds.map uuidText)
    rw [List.map_map] at hitems
    exact ⟨[],_,hnone,hitems,rfl⟩
  have hlast : SpellsFields [(.str evidenceKey,.list (c.evidenceIds.map fun id =>
      .str (plainText (uuidText id))))] (asciiString "evidence_ids".toList++([':',' ']++
        (dumpsTexts (c.evidenceIds.map uuidText)++['\x7d']))) :=
    ⟨"evidence_ids".toList,_,[],[' '],_,[],['\x7d'],rfl,asciiString_text _,hnone,hblank,hids,hnone,
      by simp [asciiString],Or.inl ⟨rfl,rfl⟩⟩
  have hkeys : [Value.str textKey,Value.str evidenceKey].Nodup := by
    simp [textKey,evidenceKey,plainText]
  refine ⟨[],_,hnone,hkeys,⟨"text".toList,_,[],[' '],_,[],_,rfl,asciiString_text _,hnone,hblank,
    htext,hnone,?_,Or.inr ⟨by simp,[' '],_,hblank,hlast,rfl⟩⟩,rfl⟩
  simp [asciiString]

theorem claims_spelt (claims : List TextClaim) :
    Spells (claimsValue claims) (dumpsClaims claims) := by
  have hblank : Blanks [' '] := by simp [Blanks,isBlank]
  have hnone : Blanks [] := by simp [Blanks]
  have hitems : Spells (.list (claims.map claimValue))
      ('['::(List.intercalate [',',' '] (claims.map dumpsClaim)++[']'])) :=
    ⟨[],_,hnone,JsonTexts.items_spelt claim_spelt claims,rfl⟩
  refine ⟨[],_,hnone,by simp,⟨"claims".toList,_,[],[' '],_,[],['\x7d'],rfl,asciiString_text _,hnone,
    hblank,hitems,hnone,?_,Or.inl ⟨rfl,rfl⟩⟩,rfl⟩
  simp

theorem loads_digits {n : ℕ} (h : 4300 < n) :
    loads python.frames (List.replicate n '1') = .error .tooManyDigits := by
  obtain ⟨n,rfl⟩ := Nat.exists_eq_add_one_of_ne_zero (by omega : n ≠ 0)
  have hall : ∀ c ∈ List.replicate n '1', Char.isDigit c = true := by
    intro c hc
    rw [List.eq_of_mem_replicate hc]
    decide
  have hwhole : JsonLoads.readWhole ('1'::List.replicate n '1') =
      some ('1'::List.replicate n '1',[]) := by
    rw [JsonLoads.readWhole,if_neg (by decide),if_pos (by decide),
      List.takeWhile_eq_self_iff.mpr hall,(dropWhile_every hall).1]
  have hnumber : JsonDecoding.scanNumber ('1'::List.replicate n '1') = .error .tooManyDigits := by
    have hlong : JsonLoads.maxDigits < ('1'::List.replicate n '1').length := by
      rw [List.length_cons,List.length_replicate]
      exact h
    have hsign : JsonLoads.readSign ('1'::List.replicate n '1') =
        ([],'1'::List.replicate n '1') := rfl
    rw [JsonDecoding.scanNumber,hsign,hwhole]
    exact if_pos hlong
  have hmark : ('1'::List.replicate n '1').head? ≠ some (Char.ofNat 0xfeff) := by
    rw [List.head?_cons]
    decide
  have hscan : ∀ fuel, JsonDecoding.scanValue python.frames (fuel+1) ('1'::List.replicate n '1') =
      .error .tooManyDigits := by
    intro fuel
    have hscalar : JsonDecoding.scanScalar ('1'::List.replicate n '1') =
        JsonDecoding.scanNumber ('1'::List.replicate n '1') := rfl
    rw [JsonDecoding.scanValue,if_neg (by decide),if_neg (by decide),if_neg (by decide),hscalar,
      hnumber]
  rw [List.replicate_succ,loads,JsonDecoding.loadsWith,if_neg hmark,
    RejoinedLines.token_skip (by decide),hscan]
  rfl

theorem scan_deep (depth : ℕ) : ∀ fuel, 2*depth < fuel →
    JsonDecoding.scanValue depth fuel (List.replicate (depth+1) '[') = .error .tooDeep := by
  induction depth with
  | zero =>
    intro fuel hfuel
    obtain ⟨fuel,rfl⟩ := Nat.exists_eq_add_one_of_ne_zero (by omega : fuel ≠ 0)
    rw [List.replicate_succ,JsonDecoding.scanValue,if_neg (by decide),if_pos rfl,if_pos rfl]
  | succ depth ih =>
    intro fuel hfuel
    obtain ⟨fuel,rfl⟩ := Nat.exists_eq_add_of_le (by omega : 2 ≤ fuel)
    have hskip : skip (List.replicate (depth+1) '[') = List.replicate (depth+1) '[' :=
      RejoinedLines.token_skip (by decide) _
    have hhead : (List.replicate (depth+1) '[').head? ≠ some ']' := by
      rw [List.replicate_succ,List.head?_cons]
      decide
    have hitems : JsonDecoding.scanItems depth (fuel+1) (List.replicate (depth+1) '[') =
        .error .tooDeep := by
      rw [JsonDecoding.scanItems,ih fuel (by omega)]
      rfl
    rw [List.replicate_succ,show 2+fuel = fuel+1+1 by omega,JsonDecoding.scanValue,
      if_neg (by decide),if_pos rfl,if_neg (Nat.succ_ne_zero _),hskip,if_neg hhead,
      Nat.add_sub_cancel,hitems]
    rfl

theorem loads_deep :
    loads python.frames (List.replicate (python.frames+1) '[') = .error .tooDeep := by
  have hmark : (List.replicate (python.frames+1) '[').head? ≠ some (Char.ofNat 0xfeff) := by
    rw [List.replicate_succ,List.head?_cons]
    decide
  have hskip : skip (List.replicate (python.frames+1) '[') =
      List.replicate (python.frames+1) '[' := RejoinedLines.token_skip (by decide) _
  rw [loads,JsonDecoding.loadsWith,if_neg hmark,hskip,scan_deep]
  · rfl
  · rw [List.length_replicate]
    omega

/-- A parse is safe exactly within the bounds of the decoder, and the claims of a
document are parsed back from the document, from a fence around it and from prose
that is no JSON document of its own. -/
theorem claims_parsed {limits : Limits} (hpositive : limits.Positive) :
    (∀ text, Safe limits (parseClaimsText limits python text) ↔
      Bounded python (candidates text)) ∧
    ∀ claims, Within limits claims → ∀ json, Spells (claimsValue claims) json →
      parseClaimsText limits python json = .ok (claims.map stripped) ∧
      (∀ info, Info info →
        parseClaimsText limits python (fenceText info json) = .ok (claims.map stripped)) ∧
      ∀ before after, Prose before after →
        (parseClaimsText limits python (before++json++after) = .ok (claims.map stripped) ↔
          (∀ c ∈ before, isSpace c = true) ∨
            loads python.frames (strip (before++json++after)) = .error .malformed) := by
  refine ⟨parse_safe_iff limits python hpositive,?_⟩
  intro claims hwithin json hspells
  have hprose : ∀ before after, Prose before after → _ := fun before after h =>
    parse_prose_iff python hpositive hwithin hspells h
  have hbare : Prose [] [] := ⟨by simp,by simp,by decide⟩
  have hplain := (hprose [] [] hbare).mpr (Or.inl (by simp))
  rw [List.nil_append,List.append_nil] at hplain
  exact ⟨hplain,fun info hinfo => parse_fence python hpositive hwithin hspells hinfo,hprose⟩

theorem claims_parsed_fence :
    let c : TextClaim := ⟨[' ','a'],[⟨1,2,3⟩],by decide,by simp,by simp⟩
    parseClaimsText {} ⟨100,le_rfl⟩ (fenceText ['j','s','o','n'] (dumpsClaims [c])) =
      .ok [stripped c] := by
  intro c
  have hwithin : Within {} [c] := ⟨by simp,by simp [c],by simp [c]⟩
  have hline : ∀ c ∈ ['j','s','o','n'], endsLine c = false := by
    intro c hc
    simp only [List.mem_cons,List.not_mem_nil,or_false] at hc
    rcases hc with rfl | rfl | rfl | rfl <;> decide
  have hinfo : Info ['j','s','o','n'] := ⟨hline,by simp⟩
  exact ((claims_parsed ⟨100,le_rfl⟩ ⟨by decide,by decide,by decide⟩).2 [c] hwithin _
    (claims_spelt [c])).2.1 _ hinfo

theorem bounded_strip (h : Bounded python (candidates text)) :
    loads python.frames (strip text) ≠ .error .tooManyDigits ∧
      loads python.frames (strip text) ≠ .error .tooDeep := ⟨h.1,h.2.1⟩

theorem strip_replicate (hc : isSpace c = false) (n : ℕ) :
    strip (List.replicate n c) = List.replicate n c := by
  have hall : ∀ d ∈ List.replicate n c, isSpace d = false := by
    intro d hd
    rw [List.eq_of_mem_replicate hd]
    exact hc
  rw [strip,(dropWhile_none hall).1,(dropWhile_none hall).2]

theorem deep_unsafe {limits : Limits} (hpositive : limits.Positive) :
    ¬Safe limits (parseClaimsText limits python (List.replicate (python.frames+1) '[')) := by
  intro hsafe
  have hbounded := bounded_strip python ((parse_safe_iff limits python hpositive _).mp hsafe)
  rw [strip_replicate (by decide)] at hbounded
  exact hbounded.2 (loads_deep python)

theorem digits_unsafe {limits : Limits} (hpositive : limits.Positive) {n : ℕ} (h : 4300 < n) :
    ¬Safe limits (parseClaimsText limits python (List.replicate n '1')) := by
  intro hsafe
  have hbounded := bounded_strip python ((parse_safe_iff limits python hpositive _).mp hsafe)
  rw [strip_replicate (by decide)] at hbounded
  exact hbounded.1 (loads_digits python h)

/-- Nested arrays and long numbers fail with other exceptions. -/
theorem unbounded_failures :
    ¬Safe {} (parseClaimsText {} ⟨100,le_rfl⟩ (List.replicate 101 '[')) ∧
    ¬Safe {} (parseClaimsText {} ⟨100,le_rfl⟩ (List.replicate 4301 '1')) := by
  have hpositive : ({} : Limits).Positive := ⟨by decide,by decide,by decide⟩
  constructor
  · exact deep_unsafe ⟨100,le_rfl⟩ hpositive
  · exact digits_unsafe ⟨100,le_rfl⟩ hpositive (by omega)

end LawyerAgent.LegalClaimRepair
