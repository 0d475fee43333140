import LawyerAgent.DatasetFacts
import LawyerAgent.EnvelopeDelivery
import LawyerAgent.JsonDocuments

/-!
# Cursors of a history

A cursor names the tenant, the user, an instant and an identifier in a JSON
array, in base64 without padding. It is not signed; it is refused under another
tenant or user.
-/

set_option autoImplicit false

namespace LawyerAgent.HistoryCursors
open Common Envelope Datetimes
open CanonicalJson (encode hexValue)
open JsonReader (decode decode_encode)
open JsonText (decimal)
open PythonJson (PyText Value plainText scalarOf)
open JsonDocuments (Interpreter)
open JsonTexts (Blanks Spells SpellsItems loads_spells)
open DatasetFacts (asciiEscape asciiString asciiString_text plainText_inj)
open WireEnvelope (UUID uuidString uuidString_inj)
open EnvelopeDelivery (PyDatetime stamp stamp_slices decimal_field decimal_digits
  hexValue_digits uuidString_digits)
open EnvelopeSigning (urlsafe urlsafeValue standardValue strictDecode)

abbrev Text : Type := List Char

def dayMicros : ℤ := 86400000000

def offsetOk (utcoffset : Option ℤ) : Bool :=
  utcoffset.all fun o => decide (-dayMicros < o ∧ o < dayMicros)

/-- A datetime; an offset is less than a day. -/
structure IsoDatetime where
  wall : Datetime
  utcoffset : Option ℤ
  range : offsetOk utcoffset = true

/-- The digits behind the seconds, where there are any. -/
def microText (micro : ℕ) : Text := if micro = 0 then [] else '.'::digits 10 6 micro

def offsetText (offset : ℤ) : Text :=
  let size := offset.natAbs
  let second := size/1000000
  (if offset < 0 then '-' else '+')::(digits 10 2 (second/3600)++
    ':'::(digits 10 2 (second/60%60)++
      if size%60000000 = 0 then []
      else ':'::(digits 10 2 (second%60)++microText (size%1000000))))

def isoformat (t : IsoDatetime) : Text :=
  let second := t.wall.instant/1000000
  let date := civilDate (second/86400)
  let clock := second%86400
  stamp date.1.toNat date.2.1.toNat date.2.2.toNat (clock/3600).toNat (clock/60%60).toNat
    (clock%60).toNat (microText (t.wall.instant%1000000).toNat++
      (t.utcoffset.elim [] offsetText))

def readMicros : Text → ℕ × Text
  | '.'::rest => (decimal (rest.take 6),rest.drop 6)
  | rest => (0,rest)

def readSeconds : Text → ℕ
  | [] => 0
  | _::tail => decimal (tail.take 2)*1000000+(readMicros (tail.drop 2)).1

def readOffset : Text → Option ℤ
  | [] => none
  | sign::rest =>
    let minutes := decimal (rest.take 2)*60+decimal ((rest.drop 3).take 2)
    let size : ℤ := (minutes*60000000+readSeconds (rest.drop 5) : ℕ)
    some (if sign = '-' then -size else size)

/-- The wall clock and the offset of an `isoformat` text. -/
def readIso (form : Text) : ℤ × Option ℤ :=
  let number (start width : ℕ) : ℤ := decimal ((form.drop start).take width)
  let fraction := readMicros (form.drop 19)
  ((civilDay (number 0 4) (number 5 2) (number 8 2)*86400+number 11 2*3600+number 14 2*60+
    number 17 2)*1000000+fraction.1,readOffset fraction.2)

/-- What reads what no cursor of this codec holds: other texts of datetimes and of
identifiers, and JSON in another encoding. Nothing is assumed of it. -/
structure Library where
  fromisoformat : PyText → Option IsoDatetime
  uuid : PyText → Option UUID
  loads : List UInt8 → Option Value

variable (L : Library) (python : Interpreter)

def scalars (text : PyText) : Text := text.filterMap scalarOf

def fromisoformat (text : PyText) : Option IsoDatetime :=
  let read := readIso (scalars text)
  if h : (minDatetime ≤ read.1 ∧ read.1 < maxDatetime) ∧ offsetOk read.2 = true then
    let t : IsoDatetime := ⟨⟨read.1,h.1.1,h.1.2⟩,read.2,h.2⟩
    if plainText (isoformat t) = text then some t else L.fromisoformat text
  else L.fromisoformat text

/-- `UUID(text)` -/
def uuidOf (text : PyText) : Option UUID :=
  let u : UUID := BitVec.ofNat 128 (hexValue ((scalars text).filter fun c => c ≠ '-'))
  if plainText (uuidString u) = text then some u else L.uuid text

/-- `json.loads` of bytes -/
def loads (bytes : List UInt8) : Option Value :=
  match (decode bytes).bind (JsonLoads.loads python.frames) with
  | some value => some value
  | none => L.loads bytes

def instant (t : IsoDatetime) : ℤ := t.wall.instant-t.utcoffset.getD 0

/-- In UTC and naive; an instant outside the range of datetimes overflows. -/
def toUtc (t : IsoDatetime) : Option Datetime :=
  if h : minDatetime ≤ instant t ∧ instant t < maxDatetime then some ⟨instant t,h.1,h.2⟩ else none

/-- `json.dumps` of a list of texts -/
def dumpsTexts (texts : List Text) : Text :=
  '['::(List.intercalate [',',' '] (texts.map asciiString)++[']'])

def cursorParts (tenantId userId : UUID) (at' : IsoDatetime) (ident : UUID) : List Text :=
  [uuidString tenantId,uuidString userId,isoformat at',uuidString ident]

def encodeCursor (tenantId userId : UUID) (at' : IsoDatetime) (ident : UUID) : Text :=
  (Base64.encode urlsafe (encode (dumpsTexts (cursorParts tenantId userId at' ident)))).rdropWhile
    (· = '=')

def altChar (c : Char) : Char := if c = '-' then '+' else if c = '_' then '/' else c

/-- `base64.b64decode(value, altchars=b"-_", validate=True)` -/
def b64decode (value : Text) : Option (List UInt8) := strictDecode (value.map altChar)

def readParts (tenantId userId : UUID) : Value → Option (PyText × PyText)
  | .list [.str tenant,.str user,.str at',.str ident] =>
    if tenant = plainText (uuidString tenantId) ∧ user = plainText (uuidString userId) then
      some (at',ident)
    else none
  | _ => none

def readCursor (value : Text) (tenantId userId : UUID) : Option (Datetime × UUID) := do
  guard (value.length ≤ 512)
  let bytes ← b64decode (value++List.replicate ((4-value.length%4)%4) '=')
  let parts ← (loads L python bytes).bind (readParts tenantId userId)
  let at' ← (fromisoformat L parts.1).bind toUtc
  let ident ← uuidOf L parts.2
  guard (isUUID7 ident = true)
  some (at',ident)

def decodeCursor (value : Option Text) (tenantId userId : UUID) :
    Except String (Option (Datetime × UUID)) :=
  match value with
  | none => .ok none
  | some value =>
    match readCursor L python value tenantId userId with
    | some read => .ok (some read)
    | none => .error "invalid_history_cursor"

theorem readMicros_text {micro : ℕ} (h : micro < 10^6) {rest : Text}
    (hrest : rest.head? ≠ some '.') : readMicros (microText micro++rest) = (micro,rest) := by
  by_cases hzero : micro = 0
  · rw [microText,if_pos hzero,List.nil_append,hzero]
    cases rest with
    | nil => rfl
    | cons c rest =>
      have hc : c ≠ '.' := fun hc => hrest (congrArg some hc)
      rw [readMicros]
      intro tail htail
      exact hc (List.cons.inj htail).1
  · have hlength := digits_length 10 6 micro
    rw [microText,if_neg hzero,List.cons_append,readMicros,List.take_left' hlength,
      List.drop_left' hlength,decimal_digits h]

def secondsText (size : ℕ) : Text :=
  if size%60000000 = 0 then []
  else ':'::(digits 10 2 (size/1000000%60)++microText (size%1000000))

theorem secondsText_read (size : ℕ) : readSeconds (secondsText size) = size%60000000 := by
  by_cases hzero : size%60000000 = 0
  · rw [secondsText,if_pos hzero,hzero,readSeconds]
  · have hlength := digits_length 10 2 (size/1000000%60)
    have hmicros : readMicros (microText (size%1000000)++[]) = (size%1000000,[]) :=
      readMicros_text (by omega) (by simp)
    rw [List.append_nil] at hmicros
    rw [secondsText,if_neg hzero,readSeconds,List.take_left' hlength,List.drop_left' hlength,
      hmicros,decimal_digits (by omega)]
    omega

theorem readOffset_text {offset : ℤ} (h : -dayMicros < offset ∧ offset < dayMicros) :
    readOffset (offsetText offset) = some offset := by
  have hday : dayMicros = 86400000000 := rfl
  have hsize : offset.natAbs < 86400000000 := by omega
  generalize hsign : (if offset < 0 then '-' else '+' : Char) = sign
  have htext : offsetText offset = sign::(digits 10 2 (offset.natAbs/1000000/3600)++
      ':'::(digits 10 2 (offset.natAbs/1000000/60%60)++secondsText offset.natAbs)) := by
    rw [offsetText,hsign]
    rfl
  have hhours := digits_length 10 2 (offset.natAbs/1000000/3600)
  have hminutes := digits_length 10 2 (offset.natAbs/1000000/60%60)
  have hslices : ∀ tail : Text,
      ((digits 10 2 (offset.natAbs/1000000/3600)++ ':'::(digits 10 2
        (offset.natAbs/1000000/60%60)++tail)).drop 3).take 2 =
          digits 10 2 (offset.natAbs/1000000/60%60) ∧
      (digits 10 2 (offset.natAbs/1000000/3600)++ ':'::(digits 10 2
        (offset.natAbs/1000000/60%60)++tail)).drop 5 = tail := fun tail => ⟨rfl,rfl⟩
  rw [htext,readOffset]
  simp only [List.take_left' hhours,(hslices _).1,(hslices _).2]
  rw [secondsText_read,decimal_digits (by omega),decimal_digits (by omega)]
  by_cases hneg : offset < 0
  · rw [if_pos hneg] at hsign
    rw [← hsign,if_pos rfl]
    congr 1
    omega
  · rw [if_neg hneg] at hsign
    rw [← hsign,if_neg (by decide)]
    congr 1
    omega

theorem offset_head (o : Option ℤ) : (o.elim [] offsetText).head? ≠ some '.' := by
  cases o with
  | none => simp
  | some offset =>
    rw [Option.elim_some,offsetText,List.head?_cons]
    split_ifs
    · decide
    · decide

theorem readIso_isoformat (t : IsoDatetime) :
    readIso (isoformat t) = (t.wall.instant,t.utcoffset) := by
  have hfirst := t.wall.first
  have hlast := t.wall.last
  have hdays := day_range hfirst hlast
  have hyear := civilDate_year hdays.1 hdays.2
  have hmonth := civilDate_month (t.wall.instant/1000000/86400)
  have hday := civilDay_civilDate (t.wall.instant/1000000/86400)
  have hmicro : readMicros (microText (t.wall.instant%1000000).toNat++
      t.utcoffset.elim [] offsetText) = ((t.wall.instant%1000000).toNat,
        t.utcoffset.elim [] offsetText) :=
    readMicros_text (by omega) (offset_head t.utcoffset)
  have hoffset : readOffset (t.utcoffset.elim [] offsetText) = t.utcoffset := by
    cases ho : t.utcoffset with
    | none => rfl
    | some offset =>
      have hrange := t.range
      rw [ho] at hrange
      exact readOffset_text (of_decide_eq_true hrange)
  unfold readIso isoformat
  obtain ⟨h₁,h₂,h₃,h₄,h₅,h₆,htail,-⟩ := stamp_slices
    (civilDate (t.wall.instant/1000000/86400)).1.toNat
    (civilDate (t.wall.instant/1000000/86400)).2.1.toNat
    (civilDate (t.wall.instant/1000000/86400)).2.2.toNat
    (t.wall.instant/1000000%86400/3600).toNat (t.wall.instant/1000000%86400/60%60).toNat
    (t.wall.instant/1000000%86400%60).toNat
    (microText (t.wall.instant%1000000).toNat++t.utcoffset.elim [] offsetText)
  simp only [h₁,h₂,h₃,h₄,h₅,h₆,htail,hmicro,hoffset]
  rw [decimal_field (by omega) (by omega),decimal_field (by omega) (by omega),
    decimal_field (by omega) (by omega),decimal_field (by omega) (by omega),
    decimal_field (by omega) (by omega),decimal_field (by omega) (by omega),hday]
  congr 1
  omega

variable {L python}

theorem scalars_plain (text : Text) : scalars (plainText text) = text := by
  rw [scalars,plainText,List.filterMap_map]
  have hsome : scalarOf ∘ PythonJson.PyChar.scalar = some := rfl
  rw [hsome,List.filterMap_some]

theorem fromisoformat_isoformat (t : IsoDatetime) :
    fromisoformat L (plainText (isoformat t)) = some t := by
  unfold fromisoformat
  have hread := readIso_isoformat t
  simp only [scalars_plain,hread]
  have hrange : (minDatetime ≤ t.wall.instant ∧ t.wall.instant < maxDatetime) ∧
      offsetOk t.utcoffset = true := ⟨⟨t.wall.first,t.wall.last⟩,t.range⟩
  rw [dif_pos hrange]
  exact if_pos trivial

theorem uuidOf_text (u : UUID) : uuidOf L (plainText (uuidString u)) = some u := by
  have hbound : u.toNat < 16^32 := by
    have := u.isLt
    omega
  have hvalue : BitVec.ofNat 128 (hexValue ((uuidString u).filter fun c => c ≠ '-')) = u := by
    rw [uuidString_digits,hexValue_digits hbound,BitVec.ofNat_toNat,BitVec.setWidth_eq]
  unfold uuidOf
  simp only [scalars_plain,hvalue,if_true]

theorem altChar_pad (c : Char) : altChar c = '=' ↔ c = '=' := by
  rw [altChar]
  split_ifs with hdash hline
  · simp [hdash]
  · simp [hline]
  · exact Iff.rfl

theorem altChar_alt (c : Char) : altChar (altChar c) = altChar c := by
  by_cases hdash : c = '-'
  · rw [hdash]
    decide
  · by_cases hline : c = '_'
    · rw [hline]
      decide
    · have hsame : altChar c = c := by rw [altChar,if_neg hdash,if_neg hline]
      rw [hsame,hsame]

theorem urlsafeValue_alt (c : Char) : urlsafeValue (altChar c) = urlsafeValue c := by
  change standardValue (altChar (altChar c)) = standardValue (altChar c)
  rw [altChar_alt]

theorem decodeFrom_alt (text : Text) (d : Base64.Decoder) :
    Base64.decodeFrom urlsafe d (text.map altChar) = Base64.decodeFrom urlsafe d text := by
  induction text generalizing d with
  | nil => rfl
  | cons c text ih =>
    have hvalue : urlsafe.value (altChar c) = urlsafe.value c := urlsafeValue_alt c
    rw [List.map_cons,Base64.decodeFrom,Base64.decodeFrom,hvalue,ih]
    by_cases hc : c = '='
    · rw [if_pos hc,if_pos ((altChar_pad c).mpr hc)]
    · rw [if_neg hc,if_neg fun h => hc ((altChar_pad c).mp h)]
      cases urlsafe.value c with
      | none => exact ih d
      | some v => exact ih (d.push v)

theorem body_ne_pad (bytes : List UInt8) : ∀ c ∈ Base64.body urlsafe bytes, c ≠ '=' := by
  intro c hc
  obtain ⟨v,hv,rfl⟩ := Base64.body_chars bytes c hc
  exact Base64.char_ne_pad hv

theorem encode_rstrip (bytes : List UInt8) :
    (Base64.encode urlsafe bytes).rdropWhile (· = '=') = Base64.body urlsafe bytes := by
  rw [Base64.encode,Base64.padding,List.rdropWhile,List.reverse_append,List.reverse_replicate,
    List.dropWhile_append_of_pos (by simp)]
  have hkeep : (Base64.body urlsafe bytes).reverse.dropWhile (fun c => decide (c = '=')) =
      (Base64.body urlsafe bytes).reverse := by
    apply List.dropWhile_eq_self_iff.mpr
    intro hpos hhead
    have hmem := List.mem_reverse.mp (List.getElem_mem hpos)
    exact body_ne_pad bytes _ hmem (of_decide_eq_true hhead)
  rw [hkeep,List.reverse_reverse]

theorem strictDecode_padded {data : Text} {bytes : List UInt8}
    (hdata : ∀ c ∈ data, c ≠ '=' ∧ (standardValue c).isSome = true)
    (h : Base64.decode urlsafe (data++List.replicate ((4-data.length%4)%4) '=') = .ok bytes) :
    strictDecode (data++List.replicate ((4-data.length%4)%4) '=') = some bytes := by
  generalize hpads : List.replicate ((4-data.length%4)%4) '=' = pads at h ⊢
  have hpad : ∀ c ∈ pads, c = '=' := by
    rw [← hpads]
    exact fun c hc => List.eq_of_mem_replicate hc
  have hplain : ∀ c ∈ data, (decide (c ≠ '=')) = true := fun c hc => decide_eq_true (hdata c hc).1
  have htake : (data++pads).takeWhile (· ≠ '=') = data := by
    rw [List.takeWhile_append_of_pos hplain]
    cases pads with
    | nil => simp
    | cons c rest => simp [hpad c List.mem_cons_self]
  have hdrop : (data++pads).dropWhile (· ≠ '=') = pads := by
    rw [List.dropWhile_append_of_pos hplain]
    cases pads with
    | nil => simp
    | cons c rest => simp [hpad c List.mem_cons_self]
  have hlength : pads.length = (4-data.length%4)%4 := by rw [← hpads,List.length_replicate]
  have hempty : ¬(data = [] ∧ pads ≠ []) := by
    rintro ⟨rfl,hne⟩
    exact hne (List.length_eq_zero_iff.mp (by rw [hlength]; rfl))
  have hvalues : (data.any fun c => (standardValue c).isNone) = false := by
    apply List.any_eq_false.mpr
    intro c hc
    rw [Option.isNone_iff_eq_none]
    intro hnone
    have hsome := (hdata c hc).2
    rw [hnone] at hsome
    cases hsome
  have hothers : (pads.any (· ≠ '=')) = false := by
    apply List.any_eq_false.mpr
    intro c hc
    simp [hpad c hc]
  rw [strictDecode,htake,hdrop,if_neg hempty,hvalues,hothers,if_neg Bool.false_ne_true,
    if_neg Bool.false_ne_true,if_neg (by omega),h]
  rfl

theorem b64decode_body (bytes : List UInt8) :
    b64decode (Base64.body urlsafe bytes++
      List.replicate ((4-(Base64.body urlsafe bytes).length%4)%4) '=') = some bytes := by
  have hread : Base64.decode urlsafe (Base64.body urlsafe bytes++
      List.replicate ((4-(Base64.body urlsafe bytes).length%4)%4) '=') = .ok bytes :=
    Base64.decode_padded bytes
  have hmap : (Base64.body urlsafe bytes++
      List.replicate ((4-(Base64.body urlsafe bytes).length%4)%4) '=').map altChar =
      (Base64.body urlsafe bytes).map altChar++
        List.replicate ((4-((Base64.body urlsafe bytes).map altChar).length%4)%4) '=' := by
    rw [List.map_append,List.map_replicate,List.length_map]
    rfl
  rw [Base64.decode,← decodeFrom_alt,hmap] at hread
  rw [b64decode,hmap]
  apply strictDecode_padded _ hread
  intro c hc
  obtain ⟨e,he,rfl⟩ := List.mem_map.mp hc
  constructor
  · exact fun h => body_ne_pad bytes e he ((altChar_pad e).mp h)
  · obtain ⟨v,hv,rfl⟩ := Base64.body_chars bytes e he
    have hvalue : urlsafeValue (urlsafe.char v) = some v := urlsafe.value_char v hv
    change (urlsafeValue (urlsafe.char v)).isSome = true
    rw [hvalue]
    rfl

theorem texts_spelt (texts : List Text) :
    SpellsItems (texts.map fun text => .str (plainText text))
      (List.intercalate [',',' '] (texts.map asciiString)++[']']) := by
  have hspells : ∀ text : Text, Spells (.str (plainText text)) (asciiString text) :=
    fun text => ⟨text,_,rfl,asciiString_text text,rfl⟩
  exact JsonTexts.items_spelt hspells texts

theorem texts_nesting (texts : List Text) :
    JsonLoads.itemsNesting (texts.map fun text => .str (plainText text)) = 0 := by
  induction texts with
  | nil => rfl
  | cons text texts ih =>
    rw [List.map_cons,JsonLoads.itemsNesting,ih]
    rfl

theorem loads_texts (texts : List Text) :
    loads L python (encode (dumpsTexts texts)) =
      some (.list (texts.map fun text => .str (plainText text))) := by
  have hspelt : Spells (.list (texts.map fun text => .str (plainText text))) (dumpsTexts texts) :=
    ⟨[],_,by simp [Blanks],texts_spelt texts,rfl⟩
  have hframes : JsonLoads.nesting (.list (texts.map fun text => .str (plainText text))) ≤
      python.frames := by
    have henough := python.enough
    have hdepth : JsonDocuments.storedDepth = 100 := rfl
    rw [JsonLoads.nesting,texts_nesting]
    omega
  rw [loads,decode_encode,Option.bind_some,loads_spells hspelt hframes]

/-- Written as it is in JSON and as one byte. -/
def Bare (c : Char) : Prop := 32 ≤ c.toNat ∧ c.toNat < 127 ∧ c ≠ '"' ∧ c ≠ '\\'

instance (c : Char) : Decidable (Bare c) := inferInstanceAs (Decidable (_ ∧ _))

theorem asciiEscape_bare {c : Char} (h : Bare c) : asciiEscape c = [c] := by
  obtain ⟨hlow,hhigh,hquote,hslash⟩ := h
  have hmark : ∀ d : Char, d.toNat < 32 → c ≠ d := by
    intro d hd hc
    rw [hc] at hlow
    omega
  rw [asciiEscape,if_neg hquote,if_neg hslash,if_neg (hmark _ (by decide)),
    if_neg (hmark _ (by decide)),if_neg (hmark _ (by decide)),if_neg (by omega),if_neg (by omega),
    if_pos ⟨hlow,hhigh⟩]

theorem asciiString_bare {text : Text} (h : ∀ c ∈ text, Bare c) :
    asciiString text = '"'::(text++['"']) := by
  have hbody : text.flatMap asciiEscape = text := by
    induction text with
    | nil => rfl
    | cons c text ih =>
      obtain ⟨hc,htext⟩ := List.forall_mem_cons.mp h
      rw [List.flatMap_cons,asciiEscape_bare hc,ih htext]
      rfl
  rw [asciiString,hbody]

theorem encode_bytes {text : Text} (h : ∀ c ∈ text, c.toNat < 128) :
    (encode text).length = text.length := by
  induction text with
  | nil => rfl
  | cons c text ih =>
    obtain ⟨hc,htext⟩ := List.forall_mem_cons.mp h
    have hsize : c.utf8Size = 1 := Char.utf8Size_eq_one_iff.mpr (by
      have hle : c.toNat ≤ 127 := by omega
      exact hle)
    have ih := ih htext
    rw [encode] at ih
    rw [encode,List.flatMap_cons,List.length_append,String.length_utf8EncodeChar,hsize,ih,
      List.length_cons]
    omega

theorem digit_bare : ∀ k < 16, Bare (digit k) := by decide

theorem digits_bare {base : ℕ} (hbase : base ≤ 16) (hpos : 0 < base) (width n : ℕ) :
    ∀ c ∈ digits base width n, Bare c := by
  intro c hc
  obtain ⟨k,hk,rfl⟩ := digits_mem hpos hc
  exact digit_bare k (by omega)

theorem uuid_bare (u : UUID) : ∀ c ∈ uuidString u, Bare c := by
  intro c hc
  by_cases hdash : c = '-'
  · rw [hdash]
    decide
  · have hmem : c ∈ (uuidString u).filter fun c => c ≠ '-' :=
      List.mem_filter.mpr ⟨hc,decide_eq_true hdash⟩
    rw [uuidString_digits] at hmem
    exact digits_bare (by decide) (by decide) 32 _ c hmem

theorem cons_bare {c : Char} {text : Text} (hc : Bare c) (h : ∀ e ∈ text, Bare e) :
    ∀ e ∈ c::text, Bare e := List.forall_mem_cons.mpr ⟨hc,h⟩

theorem append_bare {text rest : Text} (h : ∀ e ∈ text, Bare e) (hrest : ∀ e ∈ rest, Bare e) :
    ∀ e ∈ text++rest, Bare e := List.forall_mem_append.mpr ⟨h,hrest⟩

theorem micro_bare (micro : ℕ) : (∀ c ∈ microText micro, Bare c) ∧
    (microText micro).length ≤ 7 := by
  rw [microText]
  split_ifs
  · simp
  · exact ⟨cons_bare (by decide) (digits_bare (by decide) (by decide) 6 _),
      by rw [List.length_cons,digits_length]⟩

theorem seconds_bare (size : ℕ) :
    (∀ c ∈ secondsText size, Bare c) ∧ (secondsText size).length ≤ 10 := by
  have hmicro := micro_bare (size%1000000)
  rw [secondsText]
  split_ifs
  · simp
  · constructor
    · exact cons_bare (by decide)
        (append_bare (digits_bare (by decide) (by decide) 2 _) hmicro.1)
    · rw [List.length_cons,List.length_append,digits_length]
      omega

theorem offset_bare (offset : ℤ) :
    (∀ c ∈ offsetText offset, Bare c) ∧ (offsetText offset).length ≤ 16 := by
  have hseconds := seconds_bare offset.natAbs
  have hsign : Bare (if offset < 0 then '-' else '+') := by
    split_ifs
    · decide
    · decide
  have htext : offsetText offset = (if offset < 0 then '-' else '+')::(digits 10 2
      (offset.natAbs/1000000/3600)++ ':'::(digits 10 2 (offset.natAbs/1000000/60%60)++
        secondsText offset.natAbs)) := rfl
  rw [htext]
  constructor
  · exact cons_bare hsign (append_bare (digits_bare (by decide) (by decide) 2 _)
      (cons_bare (by decide) (append_bare (digits_bare (by decide) (by decide) 2 _) hseconds.1)))
  · simp only [List.length_cons,List.length_append,digits_length]
    omega

theorem stamp_bare (y m d h i s : ℕ) {tail : Text} (htail : ∀ c ∈ tail, Bare c) :
    ∀ c ∈ stamp y m d h i s tail, Bare c := by
  have hdigits : ∀ width n, ∀ c ∈ digits 10 width n, Bare c := fun width n =>
    digits_bare (by decide) (by decide) width n
  have hmark : ∀ (mark : Char) (width n : ℕ) {rest : Text}, Bare mark → (∀ c ∈ rest, Bare c) →
      ∀ c ∈ mark::digits 10 width n++rest, Bare c := fun mark width n _ hbare hrest =>
    append_bare (cons_bare hbare (hdigits width n)) hrest
  simp only [stamp,List.append_assoc]
  exact append_bare (hdigits 4 y) (hmark _ 2 m (by decide) (hmark _ 2 d (by decide)
    (hmark _ 2 h (by decide) (hmark _ 2 i (by decide) (hmark _ 2 s (by decide) htail)))))

theorem isoformat_bare (t : IsoDatetime) :
    (∀ c ∈ isoformat t, Bare c) ∧ (isoformat t).length ≤ 42 := by
  have hmicro := micro_bare (t.wall.instant%1000000).toNat
  have hoffset : (∀ c ∈ t.utcoffset.elim [] offsetText, Bare c) ∧
      (t.utcoffset.elim [] offsetText).length ≤ 16 := by
    cases t.utcoffset with
    | none => simp
    | some offset => exact offset_bare offset
  rw [isoformat]
  constructor
  · exact stamp_bare _ _ _ _ _ _ (append_bare hmicro.1 hoffset.1)
  · rw [(stamp_slices ..).2.2.2.2.2.2.2,List.length_append]
    omega

theorem bare_ascii {text : Text} (h : ∀ c ∈ text, Bare c) : ∀ c ∈ text, c.toNat < 128 := by
  intro c hc
  have hbare := (h c hc).2.1
  omega

theorem uuidString_length (u : UUID) : (uuidString u).length = 36 := by
  simp [uuidString,digits_length]

theorem cursor_text (tenantId userId : UUID) (at' : IsoDatetime) (ident : UUID) :
    dumpsTexts (cursorParts tenantId userId at' ident) =
      '['::('"'::(uuidString tenantId++['"'])++([',',' ']++('"'::(uuidString userId++['"'])++
        ([',',' ']++('"'::(isoformat at'++['"'])++([',',' ']++('"'::(uuidString
          ident++['"'])))))))++
          [']']) := by
  rw [dumpsTexts,cursorParts,List.map_cons,List.map_cons,List.map_cons,List.map_cons,
    List.map_nil,List.intercalate_cons_cons,List.intercalate_cons_cons,List.intercalate_cons_cons,
    asciiString_bare (uuid_bare tenantId),asciiString_bare (uuid_bare userId),
    asciiString_bare (isoformat_bare at').1,asciiString_bare (uuid_bare ident)]
  simp [List.intercalate]

theorem cursor_ascii (tenantId userId : UUID) (at' : IsoDatetime) (ident : UUID) :
    ∀ c ∈ dumpsTexts (cursorParts tenantId userId at' ident), c.toNat < 128 := by
  have htenant := bare_ascii (uuid_bare tenantId)
  have huser := bare_ascii (uuid_bare userId)
  have hiso := bare_ascii (isoformat_bare at').1
  have hident := bare_ascii (uuid_bare ident)
  have hopen : '['.toNat < 128 := by decide
  have hquote : '"'.toNat < 128 := by decide
  have hcomma : ','.toNat < 128 := by decide
  have hblank : ' '.toNat < 128 := by decide
  have hclose : ']'.toNat < 128 := by decide
  rw [cursor_text]
  simp only [List.forall_mem_cons,List.forall_mem_append,hopen,hquote,hcomma,hblank,hclose,
    true_and]
  exact ⟨⟨⟨htenant,by simp⟩,by simp,⟨huser,by simp⟩,by simp,⟨hiso,by simp⟩,by simp,
    hident,by simp⟩,by simp⟩

theorem cursor_length (tenantId userId : UUID) (at' : IsoDatetime) (ident : UUID) :
    (encodeCursor tenantId userId at' ident).length ≤ 512 := by
  have hiso := (isoformat_bare at').2
  have hbytes := encode_bytes (cursor_ascii tenantId userId at' ident)
  rw [cursor_text] at hbytes
  simp only [List.length_cons,List.length_append,uuidString_length,List.length_nil] at hbytes
  rw [encodeCursor,encode_rstrip,Base64.body_length,cursor_text,hbytes]
  omega

theorem cursor_ne_nil (tenantId userId : UUID) (at' : IsoDatetime) (ident : UUID) :
    encodeCursor tenantId userId at' ident ≠ [] := by
  have hbytes := CanonicalJson.encode_length (dumpsTexts (cursorParts tenantId userId at' ident))
  rw [cursor_text,List.length_cons,← cursor_text] at hbytes
  rw [← List.length_pos_iff,encodeCursor,encode_rstrip,Base64.body_length]
  omega

theorem readParts_texts (tenantId userId : UUID) (at' : IsoDatetime) (ident : UUID)
    (tenant user : UUID) :
    readParts tenant user (.list ((cursorParts tenantId userId at' ident).map fun text =>
      .str (plainText text))) = if tenantId = tenant ∧ userId = user then
        some (plainText (isoformat at'),plainText (uuidString ident)) else none := by
  have hsame : ∀ u v : UUID, plainText (uuidString u) = plainText (uuidString v) ↔ u = v :=
    fun u v => ⟨fun h => uuidString_inj (plainText_inj h),fun h => by rw [h]⟩
  simp only [cursorParts,List.map_cons,List.map_nil,readParts,hsame]

theorem readCursor_of {value : Text} {bytes : List UInt8} {tenant user : UUID}
    {parts : Option (PyText × PyText)} (hlength : value.length ≤ 512)
    (hread : b64decode (value++List.replicate ((4-value.length%4)%4) '=') = some bytes)
    (hparts : (loads L python bytes).bind (readParts tenant user) = parts) :
    readCursor L python value tenant user = parts.bind fun p =>
      ((fromisoformat L p.1).bind toUtc).bind fun t => (uuidOf L p.2).bind fun u =>
        if isUUID7 u = true then some (t,u) else none := by
  rw [readCursor,hread,guard,if_pos hlength,← hparts]
  have hguard : ∀ (t : Datetime) (u : UUID), ((guard (isUUID7 u = true) : Option Unit).bind
      fun _ => some (t,u)) = if isUUID7 u = true then some (t,u) else none := by
    intro t u
    rw [guard]
    split_ifs
    · rfl
    · rfl
  simp only [← hguard]
  rfl

theorem readCursor_encode (tenantId userId : UUID) (at' : IsoDatetime) (ident : UUID)
    (tenant user : UUID) :
    readCursor L python (encodeCursor tenantId userId at' ident) tenant user =
      if (tenantId = tenant ∧ userId = user) ∧ isUUID7 ident = true then
        (toUtc at').map fun t => (t,ident)
      else none := by
  have hread : b64decode (encodeCursor tenantId userId at' ident++List.replicate
      ((4-(encodeCursor tenantId userId at' ident).length%4)%4) '=') =
        some (encode (dumpsTexts (cursorParts tenantId userId at' ident))) := by
    rw [encodeCursor,encode_rstrip]
    exact b64decode_body _
  have hparts : (loads L python (encode (dumpsTexts (cursorParts tenantId userId at' ident)))).bind
      (readParts tenant user) = if tenantId = tenant ∧ userId = user then
        some (plainText (isoformat at'),plainText (uuidString ident)) else none := by
    rw [loads_texts,Option.bind_some,readParts_texts]
  rw [readCursor_of (cursor_length tenantId userId at' ident) hread hparts]
  by_cases hsame : tenantId = tenant ∧ userId = user
  · rw [if_pos hsame,Option.bind_some,fromisoformat_isoformat,uuidOf_text,Option.bind_some]
    by_cases hident : isUUID7 ident = true
    · rw [if_pos ⟨hsame,hident⟩]
      cases toUtc at' with
      | none => rfl
      | some t => exact if_pos hident
    · rw [if_neg fun h => hident h.2]
      cases toUtc at' with
      | none => rfl
      | some t => exact if_neg hident
  · rw [if_neg hsame,if_neg fun h => hsame h.1]
    rfl

end LawyerAgent.HistoryCursors
