import LawyerAgent.IndexLeaves
import LawyerAgent.JsonTexts

/-!
# Facts of a version's chunks

Every chunk is written as one line of ASCII JSON. The lines of a version, each
after its length and in the order of the ids, are hashed into one digest.
-/

set_option autoImplicit false

namespace LawyerAgent.DatasetFacts
open Codes Common Envelope CanonicalJson LegalCorpus
open JsonTexts JsonLoads
open JsonReader (encode_inj digits_isDigit)
open PythonRepr (uuidText_inj)

def unitEscape (n : ℕ) : List Char := '\\':: 'u'::digits 16 4 n

def asciiEscape (c : Char) : List Char :=
  if c = '"' then ['\\','"']
  else if c = '\\' then ['\\','\\']
  else if c = '\n' then ['\\','n']
  else if c = '\r' then ['\\','r']
  else if c = '\t' then ['\\','t']
  else if c.toNat = 8 then ['\\','b']
  else if c.toNat = 12 then ['\\','f']
  else if 32 ≤ c.toNat ∧ c.toNat < 127 then [c]
  else if c.toNat < 65536 then unitEscape c.toNat
  else unitEscape (0xd800+(c.toNat-65536)/1024)++unitEscape (0xdc00+(c.toNat-65536)%1024)

def asciiString (text : List Char) : List Char := '"'::(text.flatMap asciiEscape++['"'])

def asciiText : Option (List Char) → List Char
  | none => "null".toList
  | some text => asciiString text

def asciiNumber : Option ℕ → List Char
  | none => "null".toList
  | some n => Nat.toDigits 10 n

variable {sha256 : List UInt8 → Digest}

/-- `hex()` and `hexdigest()` -/
def hexText (d : Digest) : List Char := digits 16 64 d.toNat

def chunkFact (chunk : LegalChunk sha256) : List Char :=
  let c := chunk.value
  '['::(List.intercalate [','] [asciiString (uuidText c.id),asciiString (uuidText c.versionId),
    asciiString (uuidText c.provisionId),asciiText (c.parentChunkId.map uuidText),
    asciiString c.chunkType.value.toList,asciiString c.quality.value.toList,
    asciiText (c.parserVersion.map String.toList),asciiString (hexText c.contentHash),
    asciiString (hexText (sha256 (encode c.content))),asciiNumber c.parentRelativeCharStart,
    asciiNumber c.parentRelativeCharEnd]++[']'])

def lengthPrefixed (fact : List UInt8) : List UInt8 := toBytes 8 fact.length++fact

def sortedById (chunks : List (LegalChunk sha256)) : List (LegalChunk sha256) :=
  chunks.insertionSort fun a b => a.value.id.int.toNat ≤ b.value.id.int.toNat

def versionStream (chunks : List (LegalChunk sha256)) : List UInt8 :=
  (sortedById chunks).flatMap fun chunk => lengthPrefixed (encode (chunkFact chunk))

/-- The length of every line fits into its prefix. -/
def Prefixed (chunks : List (LegalChunk sha256)) : Prop :=
  ∀ chunk ∈ chunks, (encode (chunkFact chunk)).length < 256^8

instance (chunks : List (LegalChunk sha256)) : Decidable (Prefixed chunks) :=
  inferInstanceAs (Decidable (∀ chunk ∈ chunks, _))

theorem hexDigit_digit : ∀ k < 16, hexDigit (digit k) = some k := by decide

theorem unit_digits {n : ℕ} (h : n < 65536) : ∃ a b c d,
    digits 16 4 n = [a,b,c,d] ∧ hexUnit a b c d = some n := by
  refine ⟨digit (n/16/16/16%16),digit (n/16/16%16),digit (n/16%16),digit (n%16),rfl,?_⟩
  rw [hexUnit,hexDigit_digit _ (Nat.mod_lt _ (by decide)),
    hexDigit_digit _ (Nat.mod_lt _ (by decide)),
    hexDigit_digit _ (Nat.mod_lt _ (by decide)),hexDigit_digit _ (Nat.mod_lt _ (by decide))]
  have hvalue : (((n/16/16/16%16)*16+n/16/16%16)*16+n/16%16)*16+n%16 = n := by omega
  exact congrArg some hvalue

theorem asciiEscape_text (c : Char) : CharText c (asciiEscape c) := by
  rw [asciiEscape]
  by_cases hquote : c = '"'
  · rw [if_pos hquote,hquote]
    exact .short (by decide)
  rw [if_neg hquote]
  by_cases hslash : c = '\\'
  · rw [if_pos hslash,hslash]
    exact .short (by decide)
  rw [if_neg hslash]
  by_cases hline : c = '\n'
  · rw [if_pos hline,hline]
    exact .short (by decide)
  rw [if_neg hline]
  by_cases hreturn : c = '\r'
  · rw [if_pos hreturn,hreturn]
    exact .short (by decide)
  rw [if_neg hreturn]
  by_cases htab : c = '\t'
  · rw [if_pos htab,htab]
    exact .short (by decide)
  rw [if_neg htab]
  by_cases hback : c.toNat = 8
  · rw [if_pos hback]
    have hc : c = Char.ofNat 8 := by rw [← hback,Char.ofNat_toNat]
    rw [hc]
    exact .short (by decide)
  rw [if_neg hback]
  by_cases hfeed : c.toNat = 12
  · rw [if_pos hfeed]
    have hc : c = Char.ofNat 12 := by rw [← hfeed,Char.ofNat_toNat]
    rw [hc]
    exact .short (by decide)
  rw [if_neg hfeed]
  by_cases hplain : 32 ≤ c.toNat ∧ c.toNat < 127
  · rw [if_pos hplain]
    exact .raw hplain.1 hquote hslash
  rw [if_neg hplain]
  by_cases hunit : c.toNat < 65536
  · rw [if_pos hunit]
    obtain ⟨a,b,d,e,hdigits,hvalue⟩ := unit_digits hunit
    rw [unitEscape,hdigits]
    exact .unit hvalue
  · rw [if_neg hunit]
    have hmax : c.toNat < 1114112 := by
      rcases c.valid with h | h
      · have : c.toNat < 0xd800 := h
        omega
      · exact h.2
    have hhigh : (c.toNat-65536)/1024 < 1024 := by omega
    have hlow : (c.toNat-65536)%1024 < 1024 := Nat.mod_lt _ (by decide)
    obtain ⟨a,b,d,e,hdigits,hvalue⟩ := unit_digits (n := 0xd800+(c.toNat-65536)/1024) (by omega)
    obtain ⟨a',b',d',e',hdigits',hvalue'⟩ :=
      unit_digits (n := 0xdc00+(c.toNat-65536)%1024) (by omega)
    rw [unitEscape,unitEscape,hdigits,hdigits']
    have hfirst : hexUnit a b d e =
        some (0xd800+(⟨(c.toNat-65536)/1024,by omega⟩ : Fin 2048).val) := hvalue
    have hlast : hexUnit a' b' d' e' =
        some (0xd800+(⟨1024+(c.toNat-65536)%1024,by omega⟩ : Fin 2048).val) := by
      rw [hvalue']
      exact congrArg some (by dsimp only; omega)
    exact .pair hfirst hlast hhigh (Nat.le_add_right _ _) (by dsimp only; omega)

theorem asciiString_text (text : List Char) :
    StringText text (text.flatMap asciiEscape++['"']) := by
  induction text with
  | nil => exact .close
  | cons c text ih =>
    rw [List.flatMap_cons,List.append_assoc]
    exact .char (asciiEscape_text c) ih

theorem plainText_inj {s t : List Char} (h : PythonJson.plainText s = PythonJson.plainText t) :
    s = t :=
  List.map_injective_iff.mpr (fun a b hab => by injection hab) h

theorem asciiString_delimited : Delimited (fun _ : List Char => True) asciiString := by
  intro s t _ _ r r' h
  have hbody : s.flatMap asciiEscape++['"']++r = t.flatMap asciiEscape++['"']++r' :=
    (List.cons.inj h).2
  have hread := readString_string (asciiString_text s) r
  have hread' := readString_string (asciiString_text t) r'
  rw [hbody,hread'] at hread
  obtain ⟨htext,hrest⟩ := Prod.mk.inj (Option.some.inj hread)
  exact ⟨(plainText_inj htext).symm,hrest.symm⟩

theorem asciiText_delimited : Delimited (fun _ : Option (List Char) => True) asciiText := by
  have hnull : ∀ (text r r' : List Char), "null".toList++r ≠ asciiString text++r' := by
    intro text r r' h
    exact absurd (List.cons.inj h).1 (by decide)
  intro s t _ _ r r' h
  cases s with
  | none =>
    cases t with
    | none => exact ⟨rfl,List.append_cancel_left h⟩
    | some t => exact absurd h (hnull t r r')
  | some s =>
    cases t with
    | none => exact absurd h.symm (hnull s r' r)
    | some t =>
      obtain ⟨hsame,hrest⟩ := asciiString_delimited s t trivial trivial r r' h
      exact ⟨congrArg some hsame,hrest⟩

theorem digits_head {n : ℕ} {c : Char} {rest : List Char} (h : Nat.toDigits 10 n = c::rest) :
    c.isDigit = true := digits_isDigit (h ▸ List.mem_cons_self)

theorem asciiNumber_inj {a b : Option ℕ} (h : asciiNumber a = asciiNumber b) : a = b := by
  have hnull : ∀ n, "null".toList ≠ Nat.toDigits 10 n := by
    intro n hn
    exact absurd (digits_head hn.symm) (by decide)
  cases a with
  | none =>
    cases b with
    | none => rfl
    | some n => exact absurd h (hnull n)
  | some m =>
    cases b with
    | none => exact absurd h.symm (hnull m)
    | some n =>
      have hvalue : JsonText.decimal (Nat.toDigits 10 m) = JsonText.decimal (Nat.toDigits 10 n) :=
        congrArg JsonText.decimal h
      rw [JsonText.decimal_toDigits,JsonText.decimal_toDigits] at hvalue
      rw [hvalue]

theorem asciiNumber_chars {a : Option ℕ} {mark : Char} (hmark : mark.isDigit = false)
    (hletter : mark ∉ "null".toList) : mark ∉ asciiNumber a := by
  cases a with
  | none => exact hletter
  | some n =>
    intro h
    rw [digits_isDigit h] at hmark
    cases hmark

theorem asciiNumber_delimited {mark : Char} (hmark : mark.isDigit = false)
    (hletter : mark ∉ "null".toList) :
    Delimited (fun _ : Option ℕ => True) fun a => asciiNumber a++[mark] :=
  delimited_until (fun _ _ => asciiNumber_chars hmark hletter) fun _ _ _ _ h => asciiNumber_inj h

structure Fact where
  id : List Char
  versionId : List Char
  provisionId : List Char
  parentChunkId : Option (List Char)
  chunkType : List Char
  quality : List Char
  parserVersion : Option (List Char)
  contentHash : List Char
  contentSha256 : List Char
  start : Option ℕ
  stop : Option ℕ

def Fact.text (f : Fact) : List Char :=
  '['::(List.intercalate [','] [asciiString f.id,asciiString f.versionId,
    asciiString f.provisionId,asciiText f.parentChunkId,asciiString f.chunkType,
    asciiString f.quality,asciiText f.parserVersion,asciiString f.contentHash,
    asciiString f.contentSha256,asciiNumber f.start,asciiNumber f.stop]++[']'])

def factOf (chunk : LegalChunk sha256) : Fact :=
  let c := chunk.value
  ⟨uuidText c.id,uuidText c.versionId,uuidText c.provisionId,c.parentChunkId.map uuidText,
    c.chunkType.value.toList,c.quality.value.toList,c.parserVersion.map String.toList,
    hexText c.contentHash,hexText (sha256 (encode c.content)),c.parentRelativeCharStart,
    c.parentRelativeCharEnd⟩

theorem entry_inj {α : Type} {code : α → List Char} (hcode : Delimited (fun _ : α => True) code)
    {a b : α} {rest rest' : List Char} (h : code a++ ','::rest = code b++ ','::rest') :
    a = b ∧ rest = rest' := by
  have hword := hcode a b trivial trivial (','::rest) (','::rest') h
  exact ⟨hword.1,(List.cons.inj hword.2).2⟩

theorem number_inj (mark : Char) (hmark : mark.isDigit = false) (hletter : mark ∉ "null".toList)
    {a b : Option ℕ} {rest rest' : List Char}
    (h : asciiNumber a++mark::rest = asciiNumber b++mark::rest') : a = b ∧ rest = rest' := by
  have hsame : asciiNumber a++[mark]++rest = asciiNumber b++[mark]++rest' := by
    rw [List.append_assoc,List.append_assoc]
    exact h
  exact asciiNumber_delimited hmark hletter a b trivial trivial rest rest' hsame

theorem fact_inj {f g : Fact} (h : f.text = g.text) : f = g := by
  simp only [Fact.text,List.intercalate_cons_cons,List.intercalate_singleton,List.append_assoc,
    List.cons_append,List.nil_append,List.cons.injEq,true_and] at h
  have hid := entry_inj asciiString_delimited h
  have hversion := entry_inj asciiString_delimited hid.2
  have hprovision := entry_inj asciiString_delimited hversion.2
  have hparent := entry_inj asciiText_delimited hprovision.2
  have htype := entry_inj asciiString_delimited hparent.2
  have hquality := entry_inj asciiString_delimited htype.2
  have hparser := entry_inj asciiText_delimited hquality.2
  have hhash := entry_inj asciiString_delimited hparser.2
  have hcontent := entry_inj asciiString_delimited hhash.2
  have hstart := number_inj ',' (by decide) (by decide) hcontent.2
  have hstop := number_inj ']' (by decide) (by decide) hstart.2
  cases f
  cases g
  simp only [Fact.mk.injEq]
  exact ⟨hid.1,hversion.1,hprovision.1,hparent.1,htype.1,hquality.1,hparser.1,hhash.1,hcontent.1,
    hstart.1,hstop.1⟩

theorem chunkFact_text (chunk : LegalChunk sha256) : chunkFact chunk = (factOf chunk).text := by
  simp only [chunkFact,Fact.text,factOf]

theorem hexText_inj {c d : Digest} (h : hexText c = hexText d) : c = d :=
  hex_inj (congrArg String.ofList h)

theorem chunkType_value_inj {a b : ChunkType} (h : a.value = b.value) : a = b := by
  revert h
  cases a <;> cases b <;> decide

theorem chunkQuality_value_inj {a b : ChunkQuality} (h : a.value = b.value) : a = b := by
  revert h
  cases a <;> cases b <;> decide

theorem chunkFact_inj {a b : LegalChunk sha256} (h : chunkFact a = chunkFact b)
    (hcontent : sha256 (encode a.value.content) = sha256 (encode b.value.content) →
      a.value.content = b.value.content) : a = b := by
  rw [chunkFact_text,chunkFact_text] at h
  have hfact := fact_inj h
  simp only [factOf,Fact.mk.injEq,String.toList_inj] at hfact
  obtain ⟨hid,hversion,hprovision,hparent,htype,hquality,hparser,hhash,hsha,hstart,hstop⟩ := hfact
  have huuid : Function.Injective uuidText := fun _ _ hsame => uuidText_inj hsame
  have htext : Function.Injective String.toList := fun _ _ hsame => String.toList_inj.mp hsame
  have hfields : a.value = b.value := by
    cases ha : a.value
    cases hb : b.value
    rw [ha,hb] at hid hversion hprovision hparent htype hquality hparser hhash hsha hstart hstop
    rw [ha,hb] at hcontent
    rw [LegalChunkFields.mk.injEq]
    exact ⟨huuid hid,huuid hversion,huuid hprovision,chunkType_value_inj htype,
      chunkQuality_value_inj hquality,hcontent (hexText_inj hsha),
      hexText_inj hhash,Option.map_injective huuid hparent,
      Option.map_injective htext hparser,hstart,hstop⟩
  cases a
  cases b
  dsimp only at hfields
  subst hfields
  rfl

theorem lengthPrefixed_delimited :
    Delimited (fun fact : List UInt8 => fact.length < 256^8) lengthPrefixed :=
  delimited_raw (toBytes_delimited 8)

theorem lengthPrefixed_ne_nil (fact : List UInt8) : lengthPrefixed fact ≠ [] := by
  intro h
  have hlength := congrArg List.length h
  rw [lengthPrefixed,List.length_append,toBytes_length,List.length_nil] at hlength
  omega

theorem sortedById_perm (chunks : List (LegalChunk sha256)) : (sortedById chunks).Perm chunks :=
  List.perm_insertionSort _ chunks

theorem map_inj_on {α β : Type} {f : α → β} {xs ys : List α}
    (hinj : ∀ x ∈ xs, ∀ y ∈ ys, f x = f y → x = y) (h : xs.map f = ys.map f) : xs = ys := by
  induction xs generalizing ys with
  | nil => exact (List.map_eq_nil_iff.mp h.symm).symm
  | cons x xs ih =>
    cases ys with
    | nil => cases h
    | cons y ys =>
      rw [List.map_cons,List.map_cons] at h
      have hhead := hinj x List.mem_cons_self y List.mem_cons_self (List.cons.inj h).1
      rw [hhead,ih (fun z hz w hw => hinj z (List.mem_cons_of_mem _ hz) w
        (List.mem_cons_of_mem _ hw)) (List.cons.inj h).2]

theorem versionStream_perm {chunks others : List (LegalChunk sha256)} (hchunks : Prefixed chunks)
    (hothers : Prefixed others)
    (hcontent : ∀ a ∈ chunks, ∀ b ∈ others, sha256 (encode a.value.content) =
      sha256 (encode b.value.content) → a.value.content = b.value.content)
    (h : versionStream chunks = versionStream others) : chunks.Perm others := by
  have hfacts : (sortedById chunks).map (fun c => encode (chunkFact c)) =
      (sortedById others).map (fun c => encode (chunkFact c)) := by
    refine delimited_words lengthPrefixed_delimited (fun fact _ =>
      lengthPrefixed_ne_nil fact) ?_ ?_ ?_
    · intro fact hfact
      obtain ⟨c,hc,rfl⟩ := List.mem_map.mp hfact
      exact hchunks c ((sortedById_perm chunks).mem_iff.mp hc)
    · intro fact hfact
      obtain ⟨c,hc,rfl⟩ := List.mem_map.mp hfact
      exact hothers c ((sortedById_perm others).mem_iff.mp hc)
    · rw [List.flatMap_map,List.flatMap_map]
      exact h
  have hsame : sortedById chunks = sortedById others := by
    refine map_inj_on ?_ hfacts
    intro a ha b hb hfact
    refine chunkFact_inj (encode_inj hfact) ?_
    exact hcontent a ((sortedById_perm chunks).mem_iff.mp ha) b
      ((sortedById_perm others).mem_iff.mp hb)
  exact (sortedById_perm chunks).symm.trans (hsame ▸ sortedById_perm others)

end LawyerAgent.DatasetFacts
