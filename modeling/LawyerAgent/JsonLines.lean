import LawyerAgent.DatasetFacts
import LawyerAgent.RejoinedLines

/-!
# JSON on one line

`json.dumps` with `ensure_ascii=False`, on one line or indented. What it writes
is read back. On one line the only line boundaries are those that the strings
hold, and a line that ends inside a string is malformed.
-/

set_option autoImplicit false

namespace LawyerAgent.JsonLines
open CanonicalJson JsonDecoding RejoinedLines
open PythonJson (PyText Value plainText boolText scalarOf)
open Envelope (digit digits)
open JsonReader (intText dumpString_visible)
open JsonLoads hiding loads
open JsonTexts
open DatasetFacts (asciiEscape asciiEscape_text)

structure Layout where
  /-- Behind an opening bracket and before a closing one. -/
  edge : ℕ → List Char
  /-- Behind a comma. -/
  between : ℕ → List Char
  blank : ∀ depth, ∀ c ∈ edge depth++between depth, c = ' ' ∨ c = '\n'

def inline : Layout where
  edge _ := []
  between _ := [' ']
  blank _ _ hc := .inl (List.mem_singleton.mp hc)

def newline (depth : ℕ) : List Char := '\n'::List.replicate (2*depth) ' '

/-- `indent=2` -/
def indented : Layout where
  edge := newline
  between := newline
  blank depth c hc := by
    simp only [newline,List.mem_append,List.mem_cons,List.mem_replicate] at hc
    rcases hc with (hc | hc) | hc | hc
    · exact .inr hc
    · exact .inl hc.2
    · exact .inr hc
    · exact .inl hc.2

def quoted (text : List Char) : List Char := '"'::(text.flatMap escapeChar++['"'])

def enclosed (l : Layout) (depth : ℕ) (left right : Char) (parts : List (List Char)) :
    List Char :=
  if parts = [] then [left,right]
  else left::(l.edge (depth+1)++(','::l.between (depth+1)).intercalate parts++l.edge depth++[right])

def keyText : Value → Option (List Char)
  | .str text => text.mapM scalarOf
  | _ => none

def fieldText (field : List Char × List Char) : List Char := quoted field.1++ ':':: ' '::field.2

mutual

/-- An integer of too many digits and an unpaired surrogate are a `ValueError`. A dictionary
has a key once. -/
def dumps (l : Layout) (depth : ℕ) : Value → Option (List Char)
  | .none => some "null".toList
  | .bool value => some (boolText value)
  | .int n => if (Nat.toDigits 10 n.natAbs).length ≤ maxDigits then some (intText n) else none
  | .str text => (text.mapM scalarOf).map quoted
  | .list items => (dumpsItems l (depth+1) items).map (enclosed l depth '[' ']')
  | .dict items => (dumpsFields l (depth+1) items).bind fun fields =>
      if (fields.map Prod.fst).Nodup then
        some (enclosed l depth '\x7b' '\x7d' (fields.map fieldText))
      else none
  | _ => none

def dumpsItems (l : Layout) (depth : ℕ) : List Value → Option (List (List Char))
  | [] => some []
  | item::items => (dumps l depth item).bind fun part =>
      (dumpsItems l depth items).map (part::·)

def dumpsFields (l : Layout) (depth : ℕ) :
    List (Value × Value) → Option (List (List Char × List Char))
  | [] => some []
  | (key,value)::items => (keyText key).bind fun name => (dumps l depth value).bind fun part =>
      (dumpsFields l depth items).map ((name,part)::·)

end

/-- Line boundaries are inside of strings only. -/
def hidden : Quoting → List Char → Bool
  | _, [] => true
  | s, c::text => (!endsLine c || s != .outside) && hidden (quote s c) text

theorem hidden_append (s : Quoting) (text rest : List Char) :
    hidden s (text++rest) = (hidden s text && hidden (quoting s text) rest) := by
  induction text generalizing s with
  | nil => rfl
  | cons c text ih =>
    rw [List.cons_append,hidden,hidden,ih,Bool.and_assoc]
    rfl

theorem hidden_cut {front back : List Char} {c : Char}
    (h : hidden .outside (front++c::back) = true) (hc : endsLine c = true) :
    quoting .outside front ≠ .outside := by
  rw [hidden_append,Bool.and_eq_true,hidden,hc] at h
  intro hout
  simp [hout] at h

/-- Strings are whole; `flat` texts have line boundaries in strings only. -/
structure Sealed (flat : Prop) (text : List Char) : Prop where
  closed : quoting .outside text = .outside
  lines : flat → hidden .outside text = true
  visible : ∀ c ∈ text, 32 ≤ c.toNat ∨ c = '\n' ∧ ¬flat

variable {flat : Prop} {text rest : List Char}

theorem sealed_append (h : Sealed flat text) (k : Sealed flat rest) : Sealed flat (text++rest) where
  closed := by rw [quoting_append,h.closed,k.closed]
  lines hflat := by rw [hidden_append,h.lines hflat,h.closed,k.lines hflat]; rfl
  visible c hc := (List.mem_append.mp hc).elim (h.visible c) (k.visible c)

theorem sealed_plain (hquote : ∀ c ∈ text, c ≠ '"') (hline : flat → ∀ c ∈ text, endsLine c = false)
    (hvisible : ∀ c ∈ text, 32 ≤ c.toNat ∨ c = '\n' ∧ ¬flat) : Sealed flat text := by
  refine ⟨?_,?_,hvisible⟩
  · obtain ⟨used,hsame,hused⟩ := taken_plain text [] hquote
    rw [List.append_nil,List.append_nil] at hsame
    rw [hsame,hused]
  · intro hflat
    have hlines := hline hflat
    clear hvisible hline
    induction text with
    | nil => rfl
    | cons c text ih =>
      obtain ⟨hc,hquotes⟩ := List.forall_mem_cons.mp hquote
      obtain ⟨hend,hends⟩ := List.forall_mem_cons.mp hlines
      have hstay : quote .outside c = .outside := if_neg hc
      rw [hidden,hend,hstay,ih hquotes hends]
      rfl

theorem sealed_visible (h : ∀ c ∈ text, c ≠ '"' ∧ 32 ≤ c.toNat ∧ c.toNat < 127) :
    Sealed flat text := by
  apply sealed_plain
  · exact fun c hc => (h c hc).1
  · intro _ c hc
    obtain ⟨-,hlow,hhigh⟩ := h c hc
    simp only [endsLine,Bool.or_eq_false_iff,beq_eq_false_iff_ne]
    omega
  · exact fun c hc => .inl (h c hc).2.1

theorem sealed_intercalate {sep : List Char} {parts : List (List Char)} (hsep : Sealed flat sep)
    (h : ∀ part ∈ parts, Sealed flat part) : Sealed flat (sep.intercalate parts) := by
  induction parts with
  | nil => exact sealed_plain (by simp) (by simp) (by simp)
  | cons part parts ih =>
    obtain ⟨hpart,hparts⟩ := List.forall_mem_cons.mp h
    cases parts with
    | nil => simpa [List.intercalate] using hpart
    | cons next parts =>
      rw [List.intercalate_cons_cons,List.append_assoc]
      exact sealed_append hpart (sealed_append hsep (ih hparts))

theorem escape_cases (c : Char) : escapeChar c = asciiEscape c ∨
    escapeChar c = [c] ∧ 32 ≤ c.toNat ∧ c ≠ '"' ∧ c ≠ '\\' := by
  unfold escapeChar asciiEscape
  by_cases hcontrol : c.toNat < 32
  · left
    rw [if_pos hcontrol,if_neg (by omega : ¬(32 ≤ c.toNat ∧ c.toNat < 127)),
      if_pos (by omega : c.toNat < 65536)]
    rfl
  · rw [if_neg hcontrol]
    by_cases hquote : c = '"'
    · left
      rw [if_pos hquote,if_pos hquote]
    by_cases hslash : c = '\\'
    · left
      rw [if_neg hquote,if_pos hslash,if_neg hquote,if_pos hslash]
    · right
      have hne : c ≠ '\n' ∧ c ≠ '\r' ∧ c ≠ '\t' := by
        refine ⟨?_,?_,?_⟩ <;> rintro rfl <;> exact hcontrol (by decide)
      rw [if_neg hquote,if_neg hslash,if_neg hne.1,if_neg hne.2.1,if_neg hne.2.2,
        if_neg (by omega),if_neg (by omega)]
      exact ⟨rfl,by omega,hquote,hslash⟩

theorem quoted_text (text : List Char) : StringText text (text.flatMap escapeChar++['"']) := by
  induction text with
  | nil => exact .close
  | cons c text ih =>
    rw [List.flatMap_cons,List.append_assoc]
    apply StringText.char _ ih
    rcases escape_cases c with h | ⟨h,hvisible,hquote,hslash⟩
    · rw [h]
      exact asciiEscape_text c
    · rw [h]
      exact .raw hvisible hquote hslash

/-- An escaped character stays inside of its string. -/
theorem escape_inside (c : Char) : quoting .inside (escapeChar c) = .inside ∧
    hidden .inside (escapeChar c) = true := by
  have hdigit : ∀ k < 16, quote .inside (digit k) = .inside := by decide
  have hunit : ∀ n, quote .inside (digit (n%16)) = .inside :=
    fun n => hdigit _ (Nat.mod_lt _ (by decide))
  unfold escapeChar
  split_ifs with hquote hslash
  · decide
  · decide
  · decide
  · decide
  · decide
  · decide
  · decide
  · have hsteps : ∀ text, quoting .inside ('\\':: 'u'::text) = quoting .inside text ∧
        hidden .inside ('\\':: 'u'::text) = hidden .inside text := fun _ => ⟨rfl,rfl⟩
    have hfour : digits 16 4 c.toNat = [digit (c.toNat/16/16/16%16),digit (c.toNat/16/16%16),
        digit (c.toNat/16%16),digit (c.toNat%16)] := rfl
    rw [(hsteps _).1,(hsteps _).2,hfour]
    constructor
    · simp only [quoting,List.foldl_cons,List.foldl_nil,hunit]
    · simp [hidden,hunit]
  · have hstay : quote .inside c = .inside := by rw [quote,if_neg hquote,if_neg hslash]
    exact ⟨hstay,by simp [hidden]⟩

theorem quoted_sealed (text : List Char) : Sealed flat (quoted text) := by
  have hinside : quoting .inside (text.flatMap escapeChar) = .inside ∧
      hidden .inside (text.flatMap escapeChar) = true := by
    induction text with
    | nil => exact ⟨rfl,rfl⟩
    | cons c text ih =>
      obtain ⟨hc,hcs⟩ := escape_inside c
      rw [List.flatMap_cons,quoting_append,hidden_append,hc,hcs]
      exact ih
  obtain ⟨hquoting,hhidden⟩ := hinside
  have hquoted : quoted text = ['"']++(text.flatMap escapeChar++['"']) := rfl
  have hopen : quoting .outside ['"'] = .inside := rfl
  refine ⟨?_,fun _ => ?_,?_⟩
  · rw [hquoted,quoting_append,hopen,quoting_append,hquoting]
    rfl
  · rw [hquoted,hidden_append,hopen,hidden_append,hquoting,hhidden]
    rfl
  · have hvisible := dumpString_visible (String.ofList text)
    rw [dumpString,String.toList_ofList] at hvisible
    exact fun c hc => .inl (hvisible c hc)

/-- The text of a value in front of what may follow it. -/
structure Written (flat : Prop) (value : Value) (text : List Char) : Prop where
  read : ∀ depth fuel rest, Ends rest → nesting value ≤ depth → text.length < fuel →
    scanValue depth fuel (text++rest) = .ok (value,rest)
  head : ∃ c tail, text = c::tail ∧ isBlank c = false ∧ c ≠ ']' ∧ c ≠ Char.ofNat 0xfeff
  whole : Sealed flat text

theorem scan_scalar {c : Char} {value : Value} (hhead : c ≠ '"' ∧ c ≠ '[' ∧ c ≠ '\x7b')
    (h : scanScalar (c::text) = .ok (value,rest)) (depth : ℕ) {fuel : ℕ} (hfuel : 0 < fuel) :
    scanValue depth fuel (c::text) = .ok (value,rest) := by
  obtain ⟨fuel,rfl⟩ := Nat.exists_eq_succ_of_ne_zero (Nat.pos_iff_ne_zero.mp hfuel)
  rw [scanValue,if_neg hhead.1,if_neg hhead.2.1,if_neg hhead.2.2,h]

theorem scanConstant_word {names : List (String × Value)} {p : Value × List Char}
    (h : scanConstant text names = some p) : ∃ name ∈ names, text = name.1.toList++p.2 := by
  induction names with
  | nil => cases h
  | cons name names ih =>
    unfold scanConstant at h
    cases hconsume : JsonText.consume name.1.toList text with
    | none =>
      rw [hconsume] at h
      obtain ⟨other,hother,htext⟩ := ih h
      exact ⟨other,List.mem_cons_of_mem _ hother,htext⟩
    | some rest =>
      rw [hconsume] at h
      cases h
      exact ⟨name,List.mem_cons_self,consume_eq hconsume⟩

theorem scan_number {p : Value × List Char} (h : readNumber text = some p) :
    scanScalar text = .ok p := by
  have hwords : ∀ name ∈ constants, ∀ rest, readNumber (name.1.toList++rest) = none := by
    simp only [constants,List.forall_mem_cons,List.not_mem_nil,false_implies,implies_true,and_true]
    exact ⟨fun _ => rfl,fun _ => rfl,fun _ => rfl,fun _ => rfl,fun _ => rfl,fun _ => rfl⟩
  have hconstant : scanConstant text constants = none := by
    cases hscan : scanConstant text constants with
    | none => rfl
    | some q =>
      obtain ⟨name,hname,rfl⟩ := scanConstant_word hscan
      rw [hwords name hname] at h
      cases h
  obtain ⟨whole,hwhole,hvalue⟩ := Option.bind_eq_some_iff.mp h
  rw [scanScalar,hconstant]
  simp only [scanNumber,hwhole,expect,Except.bind]
  simp only at hvalue
  split_ifs at hvalue ⊢
  · cases hvalue
    rfl
  · cases hvalue
    rfl

theorem int_written {n : ℤ} (h : (Nat.toDigits 10 n.natAbs).length ≤ maxDigits) :
    Written flat (.int n) (intText n) := by
  obtain ⟨c,tail,htext,hhead⟩ := intText_head n []
  rw [List.append_nil] at htext
  obtain ⟨hblank,hclose,-⟩ := numberHead_plain hhead
  refine ⟨?_,⟨c,tail,htext,hblank,hclose,
    (numberHead_ne hhead (by decide)).symm⟩,?_⟩
  · intro depth fuel rest hrest _ hfuel
    have hread := scan_number (readNumber_digits h hrest)
    rw [htext,List.cons_append] at hread ⊢
    exact scan_scalar ⟨(numberHead_ne hhead (by decide)).symm,
      (numberHead_ne hhead (by decide)).symm,(numberHead_ne hhead (by decide)).symm⟩
      hread depth (Nat.zero_lt_of_lt hfuel)
  · apply sealed_visible
    intro c hc
    have hdigit : ∀ d : Char, d.isDigit = true ∨ d = '-' →
        d ≠ '"' ∧ 32 ≤ d.toNat ∧ d.toNat < 127 := by
      intro d hd
      rcases hd with hd | rfl
      · simp only [Char.isDigit,Bool.and_eq_true,decide_eq_true_eq,ge_iff_le,
          UInt32.le_iff_toNat_le] at hd
        have hlow : 48 ≤ d.toNat := hd.1
        have hhigh : d.toNat ≤ 57 := hd.2
        refine ⟨?_,by omega,by omega⟩
        rintro rfl
        exact absurd hlow (by decide)
      · decide
    exact hdigit c (JsonReader.intText_chars n c hc)

theorem word_written {c : Char} {word : List Char} {value : Value}
    (hhead : (c ≠ '"' ∧ c ≠ '[' ∧ c ≠ '\x7b') ∧ isBlank c = false ∧ c ≠ ']' ∧
      c ≠ Char.ofNat 0xfeff)
    (hword : (c::word).all fun d => d != '"' && 32 ≤ d.toNat && d.toNat < 127)
    (h : ∀ rest, scanScalar (c::(word++rest)) = .ok (value,rest)) :
    Written flat value (c::word) where
  read depth fuel rest _ _ hfuel := scan_scalar hhead.1 (h rest) depth (Nat.zero_lt_of_lt hfuel)
  head := ⟨c,word,rfl,hhead.2⟩
  whole := by
    apply sealed_visible
    intro d hd
    simpa [and_assoc] using List.all_eq_true.mp hword d hd

theorem text_written (text : List Char) :
    Written flat (.str (plainText text)) (quoted text) where
  read depth fuel rest _ _ hfuel := by
    obtain ⟨fuel,rfl⟩ := Nat.exists_eq_succ_of_ne_zero (Nat.ne_zero_of_lt hfuel)
    have hread := readString_string (quoted_text text) rest
    rw [quoted,List.cons_append,scanValue,if_pos rfl,hread]
    rfl
  head := ⟨'"',_,rfl,by decide,by decide,by decide⟩
  whole := quoted_sealed text

variable {between edge : List Char}

theorem skip_head (hbetween : Blanks between) {c : Char} (hc : isBlank c = false)
    (tail : List Char) : skip (between++c::tail) = c::tail := by
  rw [skip_gap hbetween,skip_token hc]

theorem intercalate_head (sep : List Char) (c : Char) (tail : List Char)
    (parts : List (List Char)) : ∃ after, sep.intercalate ((c::tail)::parts) = c::after := by
  cases parts with
  | nil => exact ⟨tail,by simp [List.intercalate]⟩
  | cons next parts => exact ⟨_,by rw [List.intercalate_cons_cons,List.append_assoc]; rfl⟩

theorem items_scanned (hbetween : Blanks between) (hedge : Blanks edge) {items : List Value}
    {parts : List (List Char)} (h : List.Forall₂ (Written flat) items parts) (hne : items ≠ [])
    {depth fuel : ℕ} (hdepth : itemsNesting items ≤ depth)
    (hfuel : ((','::between).intercalate parts).length+1 < fuel) :
    scanItems depth fuel ((','::between).intercalate parts++(edge++ ']'::rest)) =
      .ok (items,rest) := by
  induction h generalizing fuel with
  | nil => exact absurd rfl hne
  | @cons item part items parts hpart hparts ih =>
    rw [itemsNesting] at hdepth
    obtain ⟨fuel,rfl⟩ := Nat.exists_eq_succ_of_ne_zero (Nat.ne_zero_of_lt hfuel)
    cases hparts with
    | nil =>
      have hsingle : (','::between).intercalate [part] = part := by simp [List.intercalate]
      rw [hsingle] at hfuel ⊢
      have hread := hpart.read depth fuel (edge++ ']'::rest) (ends_gap hedge
        (ends_mark (by decide) rest)) (by omega) (by omega)
      rw [scanItems,hread]
      simp only [Except.bind,skip_head hedge (by decide : isBlank ']' = false)]
    | @cons next text items parts hnext hrest =>
      obtain ⟨c,tail,rfl,hc,-⟩ := hnext.head
      obtain ⟨after,hafter⟩ := intercalate_head (','::between) c tail parts
      rw [List.intercalate_cons_cons] at hfuel ⊢
      simp only [List.length_append,List.length_cons] at hfuel
      have hsmall : ((','::between).intercalate ((c::tail)::parts)).length+1 < fuel := by omega
      have hlater := ih (by simp) (by omega) hsmall
      have hread := hpart.read depth fuel (','::(between++((','::between).intercalate
        ((c::tail)::parts)++(edge++ ']'::rest)))) (ends_mark (by decide) _) (by omega) (by omega)
      rw [List.append_assoc,List.append_assoc,List.cons_append,scanItems,hread]
      rw [hafter,List.cons_append] at hlater ⊢
      simp only [Except.bind,skip_token (by decide : isBlank ',' = false),skip_head hbetween hc,
        hlater]
      rfl

def FieldWritten (flat : Prop) (p : PyText × Value) (field : List Char × List Char) : Prop :=
  p.1 = plainText field.1 ∧ Written flat p.2 field.2

theorem fields_scanned (hbetween : Blanks between) (hedge : Blanks edge)
    {pairs : List (PyText × Value)} {fields : List (List Char × List Char)}
    (h : List.Forall₂ (FieldWritten flat) pairs fields) (hne : pairs ≠ []) {depth fuel : ℕ}
    (hdepth : fieldsNesting (entries pairs) ≤ depth)
    (hfuel : ((','::between).intercalate (fields.map fieldText)).length+1 < fuel) :
    scanFields depth fuel
      ((','::between).intercalate (fields.map fieldText)++(edge++ '\x7d'::rest)) =
        .ok (pairs,rest) := by
  induction h generalizing fuel with
  | nil => exact absurd rfl hne
  | @cons p field pairs fields hp hpairs ih =>
    obtain ⟨hkey,hvalue⟩ := hp
    rw [entries,List.map_cons,fieldsNesting] at hdepth
    obtain ⟨fuel,rfl⟩ := Nat.exists_eq_succ_of_ne_zero (Nat.ne_zero_of_lt hfuel)
    obtain ⟨d,word,hword,hd,-⟩ := hvalue.head
    have hlabel := fun after => readString_string (quoted_text field.1) after
    have hfirst : ∀ after, fieldText field++after = '"'::(field.1.flatMap escapeChar++['"']++
        (':':: ' '::(field.2++after))) := by simp [fieldText,quoted]
    have hsize : field.2.length+2 < (fieldText field).length := by
      simp only [fieldText,quoted,List.length_append,List.length_cons]
      omega
    have hspace : ∀ after, skip (' '::(field.2++after)) = field.2++after := by
      intro after
      have hblank : Blanks [' '] := by simp [Blanks,isBlank]
      rw [hword]
      exact skip_head hblank hd _
    cases hpairs with
    | nil =>
      have hsingle : (','::between).intercalate (List.map fieldText [field]) = fieldText field := by
        simp [List.intercalate]
      rw [hsingle] at hfuel ⊢
      have hread := hvalue.read depth fuel (edge++ '\x7d'::rest) (ends_gap hedge
        (ends_mark (by decide) rest)) (by omega) (by omega)
      rw [hfirst,scanFields_quote,hlabel]
      simp only [expect,Except.bind,skip_token (by decide : isBlank ':' = false),hspace,hread,
        skip_head hedge (by decide : isBlank '\x7d' = false)]
      rw [← hkey]
    | @cons q next pairs fields hq hrest =>
      obtain ⟨after,hafter⟩ := intercalate_head (','::between) '"'
        ((next.1.flatMap escapeChar++['"'])++ ':':: ' '::next.2) (fields.map fieldText)
      rw [List.map_cons,List.map_cons,List.intercalate_cons_cons] at hfuel ⊢
      simp only [List.length_append,List.length_cons] at hfuel
      have hsmall : ((','::between).intercalate (List.map fieldText (next::fields))).length+1 <
          fuel := by
        rw [List.map_cons]
        omega
      have hlater := ih (by simp) (by rw [entries]; omega) hsmall
      have hread := hvalue.read depth fuel (','::(between++((','::between).intercalate
        (fieldText next::fields.map fieldText)++(edge++ '\x7d'::rest))))
          (ends_mark (by decide) _) (by omega) (by omega)
      have hhead : (','::between).intercalate (fieldText next::fields.map fieldText) = '"'::after :=
        hafter
      rw [List.append_assoc,List.append_assoc,List.cons_append,hfirst,scanFields_quote,hlabel]
      rw [List.map_cons,hhead,List.cons_append] at hlater
      rw [hhead,List.cons_append] at hread ⊢
      simp only [expect,Except.bind,skip_token (by decide : isBlank ':' = false),hspace,hread,
        skip_token (by decide : isBlank ',' = false),
        skip_head hbetween (by decide : isBlank '"' = false),hlater]
      rw [← hkey]
      rfl

def Layout.Flat (l : Layout) : Prop := ∀ depth, ∀ c ∈ l.edge depth++l.between depth, c ≠ '\n'

theorem inline_flat : inline.Flat := by
  intro _ c hc
  rw [List.mem_singleton.mp hc]
  decide

variable {l : Layout}

theorem layout_blanks (l : Layout) (depth : ℕ) :
    Blanks (l.edge depth) ∧ Blanks (l.between depth) := by
  have hall : ∀ c ∈ l.edge depth++l.between depth, isBlank c = true := by
    intro c hc
    rcases l.blank depth c hc with rfl | rfl
    · rfl
    · rfl
  exact List.forall_mem_append.mp hall

theorem layout_sealed (l : Layout) (depth : ℕ) :
    Sealed l.Flat (l.edge depth) ∧ Sealed l.Flat (l.between depth) := by
  have hgap : ∀ gap, (∀ c ∈ gap, c ∈ l.edge depth++l.between depth) → Sealed l.Flat gap := by
    intro gap hgap
    apply sealed_plain
    · intro c hc
      rcases l.blank depth c (hgap c hc) with rfl | rfl
      · decide
      · decide
    · intro hflat c hc
      rcases l.blank depth c (hgap c hc) with rfl | rfl
      · decide
      · exact absurd rfl (hflat depth _ (hgap _ hc))
    · intro c hc
      rcases l.blank depth c (hgap c hc) with rfl | rfl
      · exact .inl (by decide)
      · exact .inr ⟨rfl,fun hflat => hflat depth _ (hgap _ hc) rfl⟩
  exact ⟨hgap _ fun c hc => List.mem_append_left _ hc,hgap _ fun c hc => List.mem_append_right _ hc⟩

theorem mark_sealed {c : Char} (h : c ∈ [',',':',' ','[',']','\x7b','\x7d']) : Sealed flat [c] := by
  have hall : [',',':',' ','[',']','\x7b','\x7d'].all
      (fun c => c != '"' && 32 ≤ c.toNat && c.toNat < 127) = true := by decide
  apply sealed_visible
  intro d hd
  rw [List.mem_singleton.mp hd]
  simpa [and_assoc] using List.all_eq_true.mp hall c h

theorem enclosed_sealed {left right : Char} {parts : List (List Char)} (depth : ℕ)
    (hleft : left ∈ [',',':',' ','[',']','\x7b','\x7d'])
    (hright : right ∈ [',',':',' ','[',']','\x7b','\x7d'])
    (h : ∀ part ∈ parts, Sealed l.Flat part) :
    Sealed l.Flat (enclosed l depth left right parts) := by
  unfold enclosed
  by_cases hnone : parts = []
  · rw [if_pos hnone]
    exact sealed_append (mark_sealed hleft) (mark_sealed hright)
  · have hmark : Sealed l.Flat [','] := mark_sealed (by decide)
    have hcomma := sealed_append hmark (layout_sealed l (depth+1)).2
    rw [if_neg hnone]
    exact sealed_append (mark_sealed hleft) (sealed_append (sealed_append (sealed_append
      (layout_sealed l (depth+1)).1 (sealed_intercalate hcomma h)) (layout_sealed l depth).1)
        (mark_sealed hright))

theorem enclosed_cons (l : Layout) (depth : ℕ) (left right : Char) (part : List Char)
    (parts : List (List Char)) (rest : List Char) :
    enclosed l depth left right (part::parts)++rest = left::(l.edge (depth+1)++
      ((','::l.between (depth+1)).intercalate (part::parts)++(l.edge depth++right::rest))) := by
  simp [enclosed]

theorem enclosed_length {fuel depth : ℕ} {left right : Char} {part : List Char}
    {parts : List (List Char)}
    (h : (enclosed l depth left right (part::parts)).length < fuel+1) :
    ((','::l.between (depth+1)).intercalate (part::parts)).length+1 < fuel := by
  have hlength := congrArg List.length (enclosed_cons l depth left right part parts [])
  simp only [List.append_nil,List.length_append,List.length_cons] at hlength
  omega

theorem enclosed_head (l : Layout) (depth : ℕ) {left : Char} (right : Char)
    (parts : List (List Char)) (h : left = '[' ∨ left = '\x7b') :
    ∃ c tail, enclosed l depth left right parts = c::tail ∧ isBlank c = false ∧ c ≠ ']' ∧
      c ≠ Char.ofNat 0xfeff := by
  have hleft : isBlank left = false ∧ left ≠ ']' ∧ left ≠ Char.ofNat 0xfeff := by
    rcases h with rfl | rfl <;> decide
  unfold enclosed
  split_ifs
  · exact ⟨left,_,rfl,hleft⟩
  · exact ⟨left,_,rfl,hleft⟩

theorem forall₂_right {α β : Type} {R : α → β → Prop} {P : β → Prop} {xs : List α} {ys : List β}
    (h : List.Forall₂ R xs ys) (hP : ∀ x y, R x y → P y) : ∀ y ∈ ys, P y := by
  induction h with
  | nil => exact fun _ hy => absurd hy List.not_mem_nil
  | cons hxy _ ih => exact List.forall_mem_cons.mpr ⟨hP _ _ hxy,ih⟩

theorem list_written {items : List Value} {parts : List (List Char)} (depth : ℕ)
    (h : List.Forall₂ (Written l.Flat) items parts) :
    Written l.Flat (.list items) (enclosed l depth '[' ']' parts) := by
  refine ⟨?_,enclosed_head l depth _ _ (.inl rfl),enclosed_sealed depth (by decide) (by decide)
    (forall₂_right h fun _ _ hw => hw.whole)⟩
  · intro room fuel rest hrest hdepth hfuel
    rw [nesting] at hdepth
    obtain ⟨fuel,rfl⟩ := Nat.exists_eq_succ_of_ne_zero (Nat.ne_zero_of_lt hfuel)
    cases h with
    | nil =>
      change scanValue room (fuel+1) ('[':: ']'::rest) = _
      rw [scanValue,if_neg (by decide),if_pos rfl,if_neg (by omega),
        skip_token (by decide : isBlank ']' = false)]
      rfl
    | @cons item part items parts hpart hparts =>
      obtain ⟨hedge,-⟩ := layout_blanks l (depth+1)
      obtain ⟨c,tail,rfl,hc,hclose,-⟩ := hpart.head
      obtain ⟨after,hafter⟩ := intercalate_head (','::l.between (depth+1)) c tail parts
      have hroom : itemsNesting (item::items) ≤ room-1 := by omega
      have hscan := @items_scanned _ rest _ _ (layout_blanks l (depth+1)).2
        (layout_blanks l depth).1 _ _ (.cons hpart hparts) (by simp) _ _ hroom
        (enclosed_length hfuel)
      rw [enclosed_cons]
      rw [hafter,List.cons_append] at hscan ⊢
      rw [scanValue,if_neg (by decide),if_pos rfl,if_neg (by omega),skip_head hedge hc,
        if_neg (by simpa using hclose),hscan]
      rfl

theorem pairs_keys {pairs : List (PyText × Value)} {fields : List (List Char × List Char)}
    (h : List.Forall₂ (FieldWritten flat) pairs fields) :
    pairs.map Prod.fst = (fields.map Prod.fst).map plainText := by
  induction h with
  | nil => rfl
  | cons hp _ ih => rw [List.map_cons,List.map_cons,List.map_cons,hp.1,ih]

theorem fieldText_sealed {p : PyText × Value} {field : List Char × List Char}
    (h : FieldWritten flat p field) : Sealed flat (fieldText field) :=
  sealed_append (quoted_sealed _) (sealed_append (mark_sealed (by decide))
    (sealed_append (mark_sealed (by decide)) h.2.whole))

theorem dict_written {pairs : List (PyText × Value)} {fields : List (List Char × List Char)}
    (depth : ℕ) (h : List.Forall₂ (FieldWritten l.Flat) pairs fields)
    (hnodup : (fields.map Prod.fst).Nodup) :
    Written l.Flat (.dict (entries pairs))
      (enclosed l depth '\x7b' '\x7d' (fields.map fieldText)) := by
  have hkeys : (pairs.map Prod.fst).Nodup := by
    rw [pairs_keys h]
    exact hnodup.map fun _ _ => DatasetFacts.plainText_inj
  refine ⟨?_,enclosed_head l depth _ _ (.inr rfl),enclosed_sealed depth (by decide) (by decide)
    (List.forall_mem_map.mpr (forall₂_right h fun _ _ => fieldText_sealed))⟩
  · intro room fuel rest hrest hdepth hfuel
    rw [nesting] at hdepth
    obtain ⟨fuel,rfl⟩ := Nat.exists_eq_succ_of_ne_zero (Nat.ne_zero_of_lt hfuel)
    cases h with
    | nil =>
      change scanValue room (fuel+1) ('\x7b':: '\x7d'::rest) = _
      rw [scanValue,if_neg (by decide),if_neg (by decide),if_pos rfl,if_neg (by omega),
        skip_token (by decide : isBlank '\x7d' = false)]
      rfl
    | @cons p field pairs fields hp hpairs =>
      obtain ⟨hedge,-⟩ := layout_blanks l (depth+1)
      obtain ⟨after,hafter⟩ := intercalate_head (','::l.between (depth+1)) '"'
        ((field.1.flatMap escapeChar++['"'])++ ':':: ' '::field.2) (fields.map fieldText)
      have hhead : (','::l.between (depth+1)).intercalate (List.map fieldText (field::fields)) =
          '"'::after := hafter
      have hroom : fieldsNesting (entries (p::pairs)) ≤ room-1 := by omega
      have hscan := @fields_scanned _ rest _ _ (layout_blanks l (depth+1)).2
        (layout_blanks l depth).1 _ _ (.cons hp hpairs) (by simp) _ _ hroom
        (enclosed_length hfuel)
      rw [List.map_cons] at hscan hhead ⊢
      rw [enclosed_cons]
      rw [hhead,List.cons_append] at hscan ⊢
      rw [scanValue,if_neg (by decide),if_neg (by decide),if_pos rfl,if_neg (by omega),
        skip_head hedge (by decide : isBlank '"' = false),if_neg (by simp),hscan,
        ← dictOf_nodup hkeys]
      rfl

theorem scalars_plain {text : PyText} {chars : List Char} (h : text.mapM scalarOf = some chars) :
    text = plainText chars := by
  induction text generalizing chars with
  | nil =>
    cases h
    rfl
  | cons c text ih =>
    rw [List.mapM_cons] at h
    obtain ⟨d,hd,h⟩ := Option.bind_eq_some_iff.mp h
    obtain ⟨ds,hds,h⟩ := Option.bind_eq_some_iff.mp h
    cases h
    rw [ih hds]
    cases c with
    | scalar e =>
      cases hd
      rfl
    | surrogate code => cases hd

mutual

theorem dumps_written (depth : ℕ) (value : Value) {text : List Char}
    (h : dumps l depth value = some text) : Written l.Flat value text := by
  cases value with
  | none =>
    cases h
    exact word_written (by decide) (by decide) fun _ => rfl
  | bool b =>
    cases h
    cases b with
    | true => exact word_written (by decide) (by decide) fun _ => rfl
    | false => exact word_written (by decide) (by decide) fun _ => rfl
  | int n =>
    rw [dumps] at h
    split_ifs at h with hdigits
    cases h
    exact int_written hdigits
  | str chars =>
    obtain ⟨plain,hplain,rfl⟩ := Option.map_eq_some_iff.mp h
    rw [scalars_plain hplain]
    exact text_written plain
  | list items =>
    obtain ⟨parts,hparts,rfl⟩ := Option.map_eq_some_iff.mp h
    exact list_written depth (dumpsItems_written (depth+1) items hparts)
  | dict items =>
    obtain ⟨fields,hfields,hlaid⟩ := Option.bind_eq_some_iff.mp h
    split_ifs at hlaid with hnodup
    cases hlaid
    obtain ⟨pairs,rfl,hpairs⟩ := dumpsFields_written (depth+1) items hfields
    exact dict_written depth hpairs hnodup
  | float digits => cases h
  | tuple items => cases h
  | other => cases h

theorem dumpsItems_written (depth : ℕ) (items : List Value) {parts : List (List Char)}
    (h : dumpsItems l depth items = some parts) :
    List.Forall₂ (Written l.Flat) items parts := by
  cases items with
  | nil =>
    cases h
    exact .nil
  | cons item items =>
    obtain ⟨part,hpart,h⟩ := Option.bind_eq_some_iff.mp h
    obtain ⟨parts,hparts,rfl⟩ := Option.map_eq_some_iff.mp h
    exact .cons (dumps_written depth item hpart) (dumpsItems_written depth items hparts)

theorem dumpsFields_written (depth : ℕ) (items : List (Value × Value))
    {fields : List (List Char × List Char)} (h : dumpsFields l depth items = some fields) :
    ∃ pairs, items = entries pairs ∧ List.Forall₂ (FieldWritten l.Flat) pairs fields := by
  cases items with
  | nil =>
    cases h
    exact ⟨[],rfl,.nil⟩
  | cons item items =>
    obtain ⟨name,hname,h⟩ := Option.bind_eq_some_iff.mp h
    obtain ⟨part,hpart,h⟩ := Option.bind_eq_some_iff.mp h
    obtain ⟨fields,hfields,rfl⟩ := Option.map_eq_some_iff.mp h
    obtain ⟨pairs,rfl,hpairs⟩ := dumpsFields_written depth items hfields
    have hvalue := dumps_written depth item.2 hpart
    cases hkey : item.1 with
    | str chars =>
      rw [hkey] at hname
      have hchars := scalars_plain hname
      refine ⟨(chars,item.2)::pairs,?_,.cons ⟨hchars,hvalue⟩ hpairs⟩
      change item::entries pairs = (Value.str chars,item.2)::entries pairs
      rw [← hkey]
    | _ =>
      rw [hkey] at hname
      cases hname

end

theorem loads_dumps {depth frames : ℕ} {value : Value} (h : dumps l depth value = some text)
    (hframes : nesting value ≤ frames) (gap : List Char) (hgap : Blanks gap) :
    loads frames (text++gap) = .ok value := by
  have hwritten := dumps_written depth value h
  obtain ⟨c,tail,rfl,hblank,-,hmark⟩ := hwritten.head
  have hplain : ((c::tail)++gap).head? ≠ some (Char.ofNat 0xfeff) :=
    fun hc => hmark (Option.some_inj.mp hc)
  have hends : Ends gap := by
    rw [← List.append_nil gap]
    exact ends_gap hgap ends_nil
  have hfuel : (c::tail).length < 2*((c::tail)++gap).length+2 := by
    rw [List.length_append]
    omega
  have hrest : skip gap = [] := by
    rw [← List.append_nil gap,skip_gap hgap]
    rfl
  have hread := hwritten.read frames _ gap hends hframes hfuel
  rw [loads,loadsWith,if_neg hplain,List.cons_append,skip_token hblank]
  rw [List.cons_append] at hread
  rw [hread]
  exact if_pos hrest

/-- A text that is read has all its strings closed. -/
theorem loads_closed {frames : ℕ} {value : Value} (h : loads frames text = .ok value) :
    quoting .outside text = .outside := by
  unfold loads loadsWith at h
  split_ifs at h with hmark
  obtain ⟨p,hscan,hrest⟩ := bind_ok.mp h
  split_ifs at hrest with hnone
  have hvalue := ((scan_taken (2*text.length+2)).1 frames _ _ _ hscan).1
  have hleft := skip_taken p.2
  rw [hnone] at hleft
  obtain ⟨used,hused,hclosed⟩ := taken_trans (taken_trans (skip_taken text) hvalue) hleft
  rw [hused,List.append_nil]
  exact hclosed

/-- `"".join(json.dumps(row) + "\n" for row in rows)`, row by row. -/
def rowLines (parts : List (List Char)) : List Char := parts.flatMap (·++['\n'])

theorem splitlines_rows {parts : List (List Char)}
    (h : ∀ part ∈ parts, ∀ c ∈ part, endsLine c = false) :
    splitlines (rowLines parts) = parts := by
  induction parts with
  | nil => rfl
  | cons part parts ih =>
    obtain ⟨hpart,hparts⟩ := List.forall_mem_cons.mp h
    rw [rowLines,List.flatMap_cons,List.append_assoc]
    exact (splitlines_line hpart).trans (congrArg _ (ih hparts))

/-- A row that holds a line boundary leaves a line that ends in a string. -/
theorem splitlines_broken {parts : List (List Char)} (hflat : flat)
    (h : ∀ part ∈ parts, Sealed flat part)
    (hbroken : ∃ part ∈ parts, ∃ c ∈ part, endsLine c = true) :
    ∃ line ∈ splitlines (rowLines parts), quoting .outside line ≠ .outside := by
  induction parts with
  | nil =>
    obtain ⟨part,hpart,-⟩ := hbroken
    exact absurd hpart List.not_mem_nil
  | cons part parts ih =>
    obtain ⟨hpart,hparts⟩ := List.forall_mem_cons.mp h
    rw [rowLines,List.flatMap_cons,List.append_assoc]
    cases hfind : part.find? endsLine with
    | none =>
      have hplain : ∀ c ∈ part, endsLine c = false :=
        fun c hc => Bool.eq_false_iff.mpr (List.find?_eq_none.mp hfind c hc)
      have hlater : ∃ part ∈ parts, ∃ c ∈ part, endsLine c = true := by
        obtain ⟨other,hother,c,hc,hend⟩ := hbroken
        rcases List.mem_cons.mp hother with rfl | hother
        · rw [hplain c hc] at hend
          cases hend
        · exact ⟨other,hother,c,hc,hend⟩
      obtain ⟨line,hline,hopen⟩ := ih hparts hlater
      have hsplit := @splitlines_line part (rowLines parts) hplain
      refine ⟨line,?_,hopen⟩
      change line ∈ splitlines (part++ '\n'::rowLines parts)
      rw [hsplit]
      exact List.mem_cons_of_mem _ hline
    | some c =>
      obtain ⟨hend,front,back,rfl,hfront⟩ := List.find?_eq_some_iff_append.mp hfind
      have hcarriage : c ≠ '\r' := by
        rintro rfl
        rcases hpart.visible '\r' (by simp) with hlow | ⟨-,hplain⟩
        · exact absurd hlow (by decide)
        · exact hplain hflat
      refine ⟨front,?_,hidden_cut (hpart.lines hflat) hend⟩
      rw [List.append_assoc,List.cons_append,
        splitlines_cut (fun d hd => by simpa using hfront d hd) hend hcarriage]
      exact List.mem_cons_self

end LawyerAgent.JsonLines
