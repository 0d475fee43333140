import LawyerAgent.JsonLoads

/-!
# Texts of a JSON value

What a store may print for a value: any blanks between the tokens and any
escapes in the strings. Reading such a text gives the value back.
-/

set_option autoImplicit false

namespace LawyerAgent.JsonTexts
open JsonText (consume)
open JsonReader (readInt intText readInt_text)
open PythonJson JsonLoads

def Blanks (gap : List Char) : Prop := ∀ c ∈ gap, isBlank c = true

inductive CharText : Char → List Char → Prop
  | raw {c : Char} : 32 ≤ c.toNat → c ≠ '"' → c ≠ '\\' → CharText c [c]
  | short {c e : Char} : shortEscapes.lookup e = some c → CharText c ['\\',e]
  | unit {c a b d e : Char} : hexUnit a b d e = some c.toNat → CharText c ['\\','u',a,b,d,e]
  | pair {c a b d e a' b' d' e' : Char} {high low : Fin 2048} :
      hexUnit a b d e = some (0xd800+high.val) → hexUnit a' b' d' e' = some (0xd800+low.val) →
      high.val < 1024 → 1024 ≤ low.val → c.toNat = 65536+high.val*1024+(low.val-1024) →
      CharText c ['\\','u',a,b,d,e,'\\','u',a',b',d',e']

inductive StringText : List Char → List Char → Prop
  | close : StringText [] ['"']
  | char {c : Char} {s piece text : List Char} :
      CharText c piece → StringText s text → StringText (c::s) (piece++text)

def Digits (text : List Char) : Prop := text ≠ [] ∧ ∀ c ∈ text, c.isDigit = true

def Whole (text : List Char) : Prop := text = ['0'] ∨ Digits text ∧ text.head? ≠ some '0'

def Fraction (text : List Char) : Prop := text = [] ∨ ∃ digits, Digits digits ∧ text = '.'::digits

def Exponent (text : List Char) : Prop :=
  text = [] ∨ ∃ e sign digits, (e = 'e' ∨ e = 'E') ∧ (sign = [] ∨ sign = ['-'] ∨ sign = ['+']) ∧
    Digits digits ∧ text = e::sign++digits

def Sign (text : List Char) : Prop := text = [] ∨ text = ['-']

structure FloatText (text : List Char) : Prop where
  parts : ∃ sign whole fraction exponent, Sign sign ∧ Whole whole ∧ Fraction fraction ∧
    Exponent exponent ∧ ¬(fraction = [] ∧ exponent = []) ∧
    finiteParts whole fraction exponent = true ∧ text = sign++whole++fraction++exponent

def Storable (n : ℤ) : Prop := -2^63 ≤ n ∧ n < 2^64

mutual

def Spells : Value → List Char → Prop
  | .none, text => text = "null".toList
  | .bool value, text => text = boolText value
  | .int n, text => Storable n ∧ text = intText n
  | .float (some digits), text => FloatText digits ∧ text = digits
  | .float none, _ => False
  | .str s, text => ∃ chars body, s = plainText chars ∧ StringText chars body ∧ text = '"'::body
  | .list items, text => ∃ gap body, Blanks gap ∧ SpellsItems items body ∧ text = '['::gap++body
  | .dict items, text => ∃ gap body, Blanks gap ∧ (items.map Prod.fst).Nodup ∧
      SpellsFields items body ∧ text = '\x7b'::gap++body
  | .tuple _, _ => False
  | .other, _ => False

def SpellsItems : List Value → List Char → Prop
  | [], text => text = [']']
  | item::items, text => ∃ part gap body, Spells item part ∧ Blanks gap ∧
      text = part++gap++body ∧
        ((items = [] ∧ body = [']']) ∨
          (items ≠ [] ∧ ∃ next rest, Blanks next ∧ SpellsItems items rest ∧
            body = ','::next++rest))

def SpellsFields : List (Value × Value) → List Char → Prop
  | [], text => text = ['\x7d']
  | (key,value)::items, text => ∃ name label gap after part tail body,
      key = .str (plainText name) ∧ StringText name label ∧ Blanks gap ∧ Blanks after ∧
      Spells value part ∧ Blanks tail ∧
      text = '"'::label++gap++ ':'::after++part++tail++body ∧
        ((items = [] ∧ body = ['\x7d']) ∨
          (items ≠ [] ∧ ∃ next rest, Blanks next ∧ SpellsFields items rest ∧
            body = ','::next++rest))

end

theorem items_spelt {α : Type} {value : α → Value} {text : α → List Char}
    (hspells : ∀ a, Spells (value a) (text a)) (items : List α) :
    SpellsItems (items.map value) (List.intercalate [',',' '] (items.map text)++[']']) := by
  induction items with
  | nil => rfl
  | cons item items ih =>
    rw [List.map_cons,List.map_cons]
    cases items with
    | nil =>
      refine ⟨text item,[],[']'],hspells item,by simp [Blanks],?_,.inl ⟨rfl,rfl⟩⟩
      simp [List.intercalate]
    | cons next items =>
      refine ⟨text item,[],_,hspells item,by simp [Blanks],?_,
        .inr ⟨by simp,[' '],_,by simp [Blanks,isBlank],ih,rfl⟩⟩
      rw [List.map_cons,List.intercalate_cons_cons]
      simp

theorem skip_gap {gap : List Char} (h : Blanks gap) (rest : List Char) :
    skip (gap++rest) = skip rest := List.dropWhile_append_of_pos h

variable {c : Char}

theorem skip_token (h : isBlank c = false) (rest : List Char) :
    skip (c::rest) = c::rest := by simp [skip,h]

theorem unitChar_scalar (c : Char) : unitChar c.toNat = .scalar c := by
  have hvalid : c.toNat < 0xd800 ∨ 0xdfff < c.toNat := by
    have := c.valid
    rcases this with h | h
    · exact Or.inl h
    · exact Or.inr h.1
  rw [unitChar,dif_neg (by omega),Char.ofNat_toNat]

theorem unitChar_surrogate (code : Fin 2048) : unitChar (0xd800+code.val) = .surrogate code := by
  have hcode := code.isLt
  rw [unitChar,dif_pos (by omega)]
  exact congrArg PyChar.surrogate (Fin.ext (by simp))

theorem joinPair_scalar (c : Char) (rest : PyText) :
    joinPair (.scalar c) rest = .scalar c::rest := by
  cases rest <;> rfl

theorem joinPair_plain (code : Fin 2048) (s : List Char) :
    joinPair (.surrogate code) (plainText s) = .surrogate code::plainText s := by
  cases s <;> rfl

theorem readUnits_short {c e : Char} (h : shortEscapes.lookup e = some c) (rest : List Char) :
    readUnits ('\\'::e::rest) = (readUnits rest).map fun p => (.scalar c::p.1,p.2) := by
  have hnone : shortEscapes.lookup 'u' = none := by decide
  have hu : e ≠ 'u' := by
    rintro rfl
    rw [hnone] at h
    cases h
  rw [readUnits]
  · rw [h,Option.bind_some]
  · intro a b d f tail heq
    exact absurd heq hu

theorem readUnits_raw (hvisible : 32 ≤ c.toNat) (hquote : c ≠ '"') (hslash : c ≠ '\\')
    (rest : List Char) :
    readUnits (c::rest) = (readUnits rest).map fun p => (.scalar c::p.1,p.2) := by
  have hplain : ¬(c = '\\' ∨ c.toNat < 32) := by
    rintro (h | h)
    · exact hslash h
    · omega
  rw [readUnits]
  · rw [if_neg hplain]
  · exact hquote
  · exact fun a b d e tail h => absurd h hslash
  · exact fun e tail h => absurd h hslash

theorem readUnits_unit {a b d e : Char} {n : ℕ} (h : hexUnit a b d e = some n) (rest : List Char) :
    readUnits ('\\':: 'u'::a::b::d::e::rest) =
      (readUnits rest).map fun p => (unitChar n::p.1,p.2) := by
  rw [readUnits,h,Option.bind_some]

theorem readUnits_char {piece : List Char} (h : CharText c piece) (rest : List Char) :
    ∃ units, readUnits (piece++rest) = (readUnits rest).map (fun p => (units++p.1,p.2)) ∧
      ∀ s, units.foldr joinPair (plainText s) = plainText (c::s) := by
  cases h with
  | raw hvisible hquote hslash =>
    exact ⟨[.scalar c],readUnits_raw hvisible hquote hslash rest,fun s => joinPair_scalar c _⟩
  | short hlookup =>
    exact ⟨[.scalar c],readUnits_short hlookup rest,fun s => joinPair_scalar c _⟩
  | unit hvalue =>
    refine ⟨[unitChar c.toNat],readUnits_unit hvalue rest,?_⟩
    intro s
    rw [unitChar_scalar]
    exact joinPair_scalar c _
  | pair hhigh hlow hbound hlarge hvalue =>
    rename_i high low
    refine ⟨[.surrogate high,.surrogate low],?_,?_⟩
    · simp only [List.cons_append,List.nil_append]
      rw [readUnits_unit hhigh,readUnits_unit hlow,unitChar_surrogate,unitChar_surrogate,
        Option.map_map]
      rfl
    · intro s
      change joinPair (.surrogate high) (joinPair (.surrogate low) (plainText s)) = _
      rw [joinPair_plain,joinPair]
      rw [if_pos ⟨hbound,hlarge⟩,← hvalue,Char.ofNat_toNat]
      rfl

theorem readUnits_string {s text : List Char} (h : StringText s text) (rest : List Char) :
    ∃ units, readUnits (text++rest) = some (units,rest) ∧ joinPairs units = plainText s := by
  induction h with
  | close => exact ⟨[],rfl,rfl⟩
  | @char c s piece text hpiece _ ih =>
    obtain ⟨units,hread,hjoin⟩ := ih
    obtain ⟨first,hfirst,hnext⟩ := readUnits_char hpiece (text++rest)
    refine ⟨first++units,?_,?_⟩
    · rw [List.append_assoc,hfirst,hread]
      rfl
    · rw [joinPairs,List.foldr_append]
      change first.foldr joinPair (joinPairs units) = _
      rw [hjoin,hnext]

theorem readString_string {s text : List Char} (h : StringText s text) (rest : List Char) :
    readString (text++rest) = some (plainText s,rest) := by
  obtain ⟨units,hread,hjoin⟩ := readUnits_string h rest
  rw [readString,hread,Option.map_some,hjoin]

def Ends (rest : List Char) : Prop :=
  ∀ c, rest.head? = some c → isBlank c = true ∨ c ∈ [',',']','\x7d']

def NoDigit (rest : List Char) : Prop := ∀ c, rest.head? = some c → c.isDigit = false

theorem ends_head {rest : List Char} (h : Ends rest) (hc : rest.head? = some c) :
    c ∈ [' ','\t','\n','\r',',',']','\x7d'] := by
  rcases h c hc with hblank | hmark
  · have hmem : c ∈ [' ','\t','\n','\r'] := of_decide_eq_true hblank
    exact List.mem_append_left [',',']','\x7d'] hmem
  · exact List.mem_append_right [' ','\t','\n','\r'] hmark

theorem ends_noDigit {rest : List Char} (h : Ends rest) : NoDigit rest := by
  have hall : ([' ','\t','\n','\r',',',']','\x7d'] : List Char).all
      (fun c => !c.isDigit) = true := by decide
  intro c hc
  simpa using List.all_eq_true.mp hall c (ends_head h hc)

theorem ends_ne {rest : List Char} (h : Ends rest) {d : Char}
    (hd : d ∉ [' ','\t','\n','\r',',',']','\x7d']) : rest.head? ≠ some d := fun hc =>
  hd (ends_head h hc)

theorem digits_split {digits rest : List Char} (h : ∀ c ∈ digits, c.isDigit = true)
    (hrest : NoDigit rest) :
    (digits++rest).takeWhile Char.isDigit = digits ∧ (digits++rest).dropWhile Char.isDigit =
      rest := by
  rw [List.takeWhile_append_of_pos h,List.dropWhile_append_of_pos h]
  cases rest with
  | nil => simp
  | cons c rest =>
    have hc : c.isDigit = false := hrest c rfl
    simp [hc]

theorem digits_head {digits : List Char} (h : Digits digits) (rest : List Char) :
    ∃ c, (digits++rest).head? = some c ∧ c.isDigit = true := by
  obtain ⟨c,tail,rfl⟩ := List.exists_cons_of_ne_nil h.1
  exact ⟨c,rfl,h.2 c List.mem_cons_self⟩

theorem whole_digits {whole : List Char} (h : Whole whole) : Digits whole := by
  rcases h with rfl | h
  · refine ⟨by decide,?_⟩
    intro c hc
    rw [List.mem_singleton.mp hc]
    rfl
  · exact h.1

theorem readSign_text {sign rest : List Char} (h : Sign sign) (hrest : rest.head? ≠ some '-') :
    readSign (sign++rest) = (sign,rest) := by
  rcases h with rfl | rfl
  · rw [List.nil_append]
    unfold readSign
    split
    · exact absurd rfl hrest
    · rfl
  · rfl

theorem readWhole_text {whole rest : List Char} (h : Whole whole) (hrest : NoDigit rest) :
    readWhole (whole++rest) = some (whole,rest) := by
  rcases h with rfl | ⟨⟨hne,hdigits⟩,hzero⟩
  · rfl
  · obtain ⟨c,tail,rfl⟩ := List.exists_cons_of_ne_nil hne
    have hc : c ≠ '0' := fun h => hzero (congrArg some h)
    have hsplit := digits_split (fun d hd => hdigits d (List.mem_cons_of_mem c hd)) hrest
    rw [List.cons_append,readWhole,if_neg hc,if_pos (hdigits c List.mem_cons_self),hsplit.1,
      hsplit.2]

theorem readFraction_text {fraction rest : List Char} (h : Fraction fraction)
    (hrest : NoDigit rest) (hdot : rest.head? ≠ some '.') :
    readFraction (fraction++rest) = (fraction,rest) := by
  rcases h with rfl | ⟨digits,⟨hne,hdigits⟩,rfl⟩
  · rw [List.nil_append]
    unfold readFraction
    split
    · exact absurd rfl hdot
    · rfl
  · have hsplit := digits_split hdigits hrest
    rw [List.cons_append,readFraction,hsplit.1,hsplit.2,if_neg hne]

theorem readExponentSign_text {sign rest : List Char} (h : sign = [] ∨ sign = ['-'] ∨ sign = ['+'])
    (hrest : rest.head? = some c) (hc : c.isDigit = true) :
    readExponentSign (sign++rest) = (sign,rest) := by
  rcases h with rfl | rfl | rfl
  · rw [List.nil_append]
    unfold readExponentSign
    split
    · cases Option.some_inj.mp hrest
      exact absurd hc (by decide)
    · cases Option.some_inj.mp hrest
      exact absurd hc (by decide)
    · rfl
  · rfl
  · rfl

theorem readExponent_text {exponent rest : List Char} (h : Exponent exponent) (hrest : Ends rest) :
    readExponent (exponent++rest) = (exponent,rest) := by
  rcases h with rfl | ⟨e,sign,digits,he,hsign,hdigits,rfl⟩
  · cases rest with
    | nil => rfl
    | cons c rest =>
      have hc : ¬(c = 'e' ∨ c = 'E') := by
        rintro (rfl | rfl)
        · exact ends_ne hrest (by decide) rfl
        · exact ends_ne hrest (by decide) rfl
      rw [List.nil_append,readExponent]
      simp [hc]
  · obtain ⟨c,hhead,hc⟩ := digits_head hdigits rest
    have hread := readExponentSign_text hsign hhead hc
    have hsplit := digits_split hdigits.2 (ends_noDigit hrest)
    rw [List.cons_append,List.cons_append,List.append_assoc,readExponent]
    simp only [hread,hsplit.1,hsplit.2]
    rw [if_pos ⟨he,hdigits.1⟩]
    rfl

theorem noDigit_fraction {fraction rest : List Char} (h : Fraction fraction)
    (hrest : NoDigit rest) :
    NoDigit (fraction++rest) := by
  rcases h with rfl | ⟨digits,-,rfl⟩
  · exact hrest
  · rintro c hc
    cases Option.some_inj.mp hc
    decide

theorem exponent_head {exponent rest : List Char} (h : Exponent exponent) (hrest : Ends rest)
    (hc : (exponent++rest).head? = some c) :
    c ∈ ['e','E',' ','\t','\n','\r',',',']','\x7d'] := by
  rcases h with rfl | ⟨e,sign,digits,he,-,-,rfl⟩
  · exact List.mem_append_right ['e','E'] (ends_head hrest hc)
  · cases Option.some_inj.mp hc
    rcases he with rfl | rfl <;> simp

theorem noDigit_exponent {exponent rest : List Char} (h : Exponent exponent) (hrest : Ends rest) :
    NoDigit (exponent++rest) := by
  have hall : (['e','E',' ','\t','\n','\r',',',']','\x7d'] : List Char).all
      (fun c => !c.isDigit) = true := by decide
  intro c hc
  simpa using List.all_eq_true.mp hall c (exponent_head h hrest hc)

theorem readNumber_parts {sign whole fraction exponent rest : List Char} (hsign : Sign sign)
    (hwhole : Whole whole) (hfraction : Fraction fraction) (hexponent : Exponent exponent)
    (hrest : Ends rest) :
    readNumber (sign++(whole++(fraction++(exponent++rest)))) =
      if fraction = [] ∧ exponent = [] then
        if maxDigits < whole.length then none
        else some (.int (readInt (sign++whole)),rest)
      else if finiteParts whole fraction exponent then
        some (.float (some (sign++whole++fraction++exponent)),rest)
      else none := by
  have hnodigit := noDigit_exponent hexponent hrest
  have hdot : (exponent++rest).head? ≠ some '.' := fun hc =>
    absurd (exponent_head hexponent hrest hc) (by decide)
  obtain ⟨c,hhead,hdigit⟩ := digits_head (whole_digits hwhole) (fraction++(exponent++rest))
  have hminus : (whole++(fraction++(exponent++rest))).head? ≠ some '-' := by
    rw [hhead]
    rintro hc
    cases Option.some_inj.mp hc
    exact absurd hdigit (by decide)
  rw [readNumber]
  simp only [readSign_text hsign hminus,readWhole_text hwhole (noDigit_fraction hfraction hnodigit),
    Option.bind_some,readFraction_text hfraction hnodigit hdot,readExponent_text hexponent hrest]

theorem readNumber_float {text rest : List Char} (h : FloatText text) (hrest : Ends rest) :
    readNumber (text++rest) = some (.float (some text),rest) := by
  obtain ⟨sign,whole,fraction,exponent,hsign,hwhole,hfraction,hexponent,hsome,hfinite,rfl⟩ :=
    h.parts
  have hread := readNumber_parts hsign hwhole hfraction hexponent hrest
  rw [if_neg hsome,if_pos hfinite] at hread
  simpa only [List.append_assoc] using hread

theorem whole_nat (n : ℕ) : Whole (Nat.toDigits 10 n) := by
  induction n using Nat.strongRecOn with
  | ind n ih =>
    by_cases hsmall : n < 10
    · rw [Nat.toDigits_of_lt_base hsmall]
      have hall : ∀ k < 10, Nat.digitChar k = '0' ∨
          (Nat.digitChar k).isDigit = true ∧ Nat.digitChar k ≠ '0' := by decide
      rcases hall n hsmall with hzero | ⟨hdigit,hne⟩
      · exact Or.inl (by rw [hzero])
      · refine Or.inr ⟨⟨by simp,?_⟩,by simpa using hne⟩
        intro c hc
        rwa [List.mem_singleton.mp hc]
    · have hdigits : ∀ c ∈ Nat.toDigits 10 n, c.isDigit = true := fun c hc =>
        JsonReader.digits_isDigit hc
      refine Or.inr ⟨⟨Nat.toDigits_ne_nil,hdigits⟩,?_⟩
      have hfront := ih (n/10) (by omega)
      have hfront_digits := whole_digits hfront
      obtain ⟨c,tail,hcons⟩ := List.exists_cons_of_ne_nil hfront_digits.1
      rw [Nat.toDigits_of_base_le (by omega) (by omega),hcons]
      rcases hfront with hzero | ⟨-,hne⟩
      · have hvalue := JsonText.decimal_toDigits (n/10)
        rw [hzero] at hvalue
        have hnone : JsonText.decimal ['0'] = 0 := by decide
        omega
      · rw [hcons] at hne
        exact hne

theorem toDigits_short {n : ℕ} (h : n < 10^20) : (Nat.toDigits 10 n).length ≤ maxDigits := by
  have hlength := (Nat.length_toDigits_le_iff (by decide : 1 < 10) (by decide : 0 < 20)).mpr h
  exact hlength.trans (by decide)

theorem readNumber_digits {n : ℤ} (h : (Nat.toDigits 10 n.natAbs).length ≤ maxDigits)
    {rest : List Char} (hrest : Ends rest) :
    readNumber (intText n++rest) = some (.int n,rest) := by
  have hparts : ∃ sign whole, Sign sign ∧ Whole whole ∧ whole.length ≤ maxDigits ∧
      intText n = sign++whole := by
    cases n with
    | ofNat m => exact ⟨[],_,Or.inl rfl,whole_nat m,h,JsonReader.intText_nat m⟩
    | negSucc m => exact ⟨['-'],_,Or.inr rfl,whole_nat (m+1),h,JsonReader.intText_negSucc m⟩
  obtain ⟨sign,whole,hsign,hwhole,hshort,htext⟩ := hparts
  have hread := readNumber_parts hsign hwhole (Or.inl rfl) (Or.inl rfl) hrest
  rw [if_pos ⟨rfl,rfl⟩,if_neg (not_lt.mpr hshort),← htext,readInt_text] at hread
  rw [htext,List.append_assoc]
  exact hread

theorem readNumber_int {n : ℤ} (h : Storable n) {rest : List Char} (hrest : Ends rest) :
    readNumber (intText n++rest) = some (.int n,rest) := by
  obtain ⟨hlow,hhigh⟩ := h
  exact readNumber_digits (toDigits_short (by omega)) hrest

/-- The first character of a number. -/
def numberHead (c : Char) : Bool := c.isDigit || c == '-'

theorem numberHead_ne {c d : Char} (h : numberHead c = true) (hd : numberHead d = false) :
    d ≠ c := by
  rintro rfl
  rw [h] at hd
  cases hd

theorem readScalar_number {text : List Char} (h : numberHead c = true) :
    readScalar (c::text) = readNumber (c::text) := by
  have hnone : ∀ d literal, numberHead d = false → consume (d::literal) (c::text) = none :=
    fun d literal hd => if_neg (numberHead_ne h hd)
  have hnull : consume "null".toList (c::text) = none := hnone 'n' _ (by decide)
  have htrue : consume "true".toList (c::text) = none := hnone 't' _ (by decide)
  have hfalse : consume "false".toList (c::text) = none := hnone 'f' _ (by decide)
  rw [readScalar,hnull,htrue,hfalse]

theorem readValue_number {text : List Char} {fuel : ℕ} (hfuel : 0 < fuel)
    (h : numberHead c = true) :
    readValue fuel (c::text) = readNumber (c::text) := by
  obtain ⟨fuel,rfl⟩ := Nat.exists_eq_succ_of_ne_zero (Nat.pos_iff_ne_zero.mp hfuel)
  rw [readValue,if_neg (numberHead_ne h (by decide)).symm,
    if_neg (numberHead_ne h (by decide)).symm,if_neg (numberHead_ne h (by decide)).symm,
    readScalar_number h]

theorem parts_head {sign whole tail : List Char} (hsign : Sign sign) (hwhole : Whole whole) :
    ∃ c text, sign++(whole++tail) = c::text ∧ numberHead c = true := by
  rcases hsign with rfl | rfl
  · obtain ⟨hne,hdigits⟩ := whole_digits hwhole
    obtain ⟨c,text,rfl⟩ := List.exists_cons_of_ne_nil hne
    exact ⟨c,text++tail,rfl,by simp [numberHead,hdigits c List.mem_cons_self]⟩
  · exact ⟨'-',whole++tail,rfl,rfl⟩

theorem intText_head (n : ℤ) (rest : List Char) :
    ∃ c text, intText n++rest = c::text ∧ numberHead c = true := by
  cases n with
  | ofNat m =>
    rw [Int.ofNat_eq_natCast,JsonReader.intText_nat]
    exact parts_head (Or.inl rfl) (whole_nat m)
  | negSucc m =>
    rw [JsonReader.intText_negSucc]
    exact parts_head (Or.inr rfl) (whole_nat (m+1))

theorem floatText_head {text : List Char} (h : FloatText text) (rest : List Char) :
    ∃ c tail, text++rest = c::tail ∧ numberHead c = true := by
  obtain ⟨sign,whole,fraction,exponent,hsign,hwhole,-,-,-,-,rfl⟩ := h.parts
  rw [List.append_assoc,List.append_assoc,List.append_assoc]
  exact parts_head hsign hwhole

theorem readValue_literal {literal rest : List Char} {value : Value} {fuel : ℕ} (hfuel : 0 < fuel)
    (hplain : c ≠ '"' ∧ c ≠ '[' ∧ c ≠ '\x7b')
    (h : readScalar (c::literal++rest) = some (value,rest)) :
    readValue fuel (c::literal++rest) = some (value,rest) := by
  obtain ⟨fuel,rfl⟩ := Nat.exists_eq_succ_of_ne_zero (Nat.pos_iff_ne_zero.mp hfuel)
  rw [List.cons_append,readValue,if_neg hplain.1,if_neg hplain.2.1,if_neg hplain.2.2]
  exact h

theorem numberHead_plain (h : numberHead c = true) :
    isBlank c = false ∧ c ≠ ']' ∧ c ≠ Char.ofNat 0xfeff := by
  refine ⟨?_,(numberHead_ne h (by decide)).symm,(numberHead_ne h (by decide)).symm⟩
  apply decide_eq_false
  intro hblank
  have hall : ([' ','\t','\n','\r'] : List Char).all (fun c => !numberHead c) = true := by decide
  have hno := List.all_eq_true.mp hall c hblank
  rw [h] at hno
  cases hno

theorem spells_head {v : Value} {text : List Char} (h : Spells v text) :
    ∃ c tail, text = c::tail ∧ isBlank c = false ∧ c ≠ ']' ∧ c ≠ Char.ofNat 0xfeff := by
  cases v with
  | none =>
    rw [Spells] at h
    exact ⟨'n',_,h,by decide⟩
  | bool value =>
    rw [Spells] at h
    cases value with
    | true => exact ⟨'t',_,h,by decide⟩
    | false => exact ⟨'f',_,h,by decide⟩
  | int n =>
    rw [Spells] at h
    obtain ⟨c,tail,htext,hc⟩ := intText_head n []
    rw [List.append_nil] at htext
    exact ⟨c,tail,h.2.trans htext,numberHead_plain hc⟩
  | float digits =>
    cases digits with
    | none =>
      rw [Spells] at h
      exact h.elim
    | some digits =>
      rw [Spells] at h
      obtain ⟨c,tail,htext,hc⟩ := floatText_head h.1 []
      rw [List.append_nil] at htext
      exact ⟨c,tail,h.2.trans htext,numberHead_plain hc⟩
  | str s =>
    rw [Spells] at h
    obtain ⟨chars,body,-,-,rfl⟩ := h
    exact ⟨'"',body,rfl,by decide⟩
  | list items =>
    rw [Spells] at h
    obtain ⟨gap,body,-,-,rfl⟩ := h
    exact ⟨'[',gap++body,rfl,by decide⟩
  | dict items =>
    rw [Spells] at h
    obtain ⟨gap,body,-,-,-,rfl⟩ := h
    exact ⟨'\x7b',gap++body,rfl,by decide⟩
  | tuple items => rw [Spells] at h; exact h.elim
  | other => rw [Spells] at h; exact h.elim

theorem spells_append {v : Value} {text : List Char} (h : Spells v text) (rest : List Char) :
    skip (text++rest) = text++rest ∧ (text++rest).head? ≠ some ']' := by
  obtain ⟨c,tail,rfl,hblank,hbracket,-⟩ := spells_head h
  exact ⟨skip_token hblank _,fun hc => hbracket (Option.some_inj.mp hc)⟩

theorem ends_nil : Ends [] := fun _ hc => by cases hc

theorem ends_mark (h : c ∈ [',',']','\x7d']) (rest : List Char) : Ends (c::rest) := by
  intro d hd
  rw [← Option.some_inj.mp hd]
  exact Or.inr h

theorem ends_gap {gap rest : List Char} (hgap : Blanks gap) (hrest : Ends rest) :
    Ends (gap++rest) := by
  cases gap with
  | nil => exact hrest
  | cons c gap =>
    intro d hd
    rw [← Option.some_inj.mp hd]
    exact Or.inl (hgap c List.mem_cons_self)

theorem items_head {items : List Value} {text : List Char} (hne : items ≠ [])
    (h : SpellsItems items text) (rest : List Char) :
    skip (text++rest) = text++rest ∧ (text++rest).head? ≠ some ']' := by
  obtain ⟨item,items,rfl⟩ := List.exists_cons_of_ne_nil hne
  rw [SpellsItems] at h
  obtain ⟨part,gap,body,hpart,-,rfl,-⟩ := h
  rw [List.append_assoc,List.append_assoc]
  exact spells_append hpart _

theorem fields_head {items : List (Value × Value)} {text : List Char} (hne : items ≠ [])
    (h : SpellsFields items text) (rest : List Char) :
    skip (text++rest) = text++rest ∧ (text++rest).head? ≠ some '\x7d' := by
  obtain ⟨⟨key,value⟩,items,rfl⟩ := List.exists_cons_of_ne_nil hne
  rw [SpellsFields] at h
  obtain ⟨name,label,gap,after,part,tail,body,-,-,-,-,-,-,rfl,-⟩ := h
  exact ⟨rfl,by simp⟩

theorem uniqueObject_dict {pairs : List (PyText × Value)}
    (h : ((pairs.map fun p => (Value.str p.1,p.2)).map Prod.fst).Nodup) :
    uniqueObject pairs = some (.dict (pairs.map fun p => (.str p.1,p.2))) := by
  rw [List.map_map] at h
  have hkeys : (pairs.map Prod.fst).map Value.str =
    pairs.map (Prod.fst ∘ fun p => (Value.str p.1,p.2)) := by
    rw [List.map_map]
    rfl
  rw [← hkeys] at h
  rw [uniqueObject,if_pos (List.Nodup.of_map _ h)]

mutual

theorem readValue_spells (v : Value) {text rest : List Char} {fuel : ℕ} (h : Spells v text)
    (hrest : Ends rest) (hfuel : text.length < fuel) :
    readValue fuel (text++rest) = some (v,rest) := by
  have hpos : 0 < fuel := Nat.zero_lt_of_lt hfuel
  cases v with
  | none =>
    rw [Spells] at h
    rw [h]
    exact readValue_literal hpos (by decide) rfl
  | bool value =>
    rw [Spells] at h
    rw [h]
    cases value with
    | true => exact readValue_literal hpos (by decide) rfl
    | false => exact readValue_literal hpos (by decide) rfl
  | int n =>
    rw [Spells] at h
    obtain ⟨c,tail,htext,hc⟩ := intText_head n rest
    rw [h.2,htext,readValue_number hpos hc,← htext,readNumber_int h.1 hrest]
  | float digits =>
    cases digits with
    | none =>
      rw [Spells] at h
      exact h.elim
    | some digits =>
      rw [Spells] at h
      obtain ⟨c,tail,htext,hc⟩ := floatText_head h.1 rest
      rw [h.2,htext,readValue_number hpos hc,← htext,readNumber_float h.1 hrest]
  | str s =>
    rw [Spells] at h
    obtain ⟨chars,body,rfl,hbody,rfl⟩ := h
    obtain ⟨fuel,rfl⟩ := Nat.exists_eq_succ_of_ne_zero (Nat.pos_iff_ne_zero.mp hpos)
    rw [List.cons_append,readValue,if_pos rfl,readString_string hbody]
    rfl
  | list items =>
    rw [Spells] at h
    obtain ⟨gap,body,hgap,hitems,rfl⟩ := h
    obtain ⟨fuel,rfl⟩ := Nat.exists_eq_succ_of_ne_zero (Nat.pos_iff_ne_zero.mp hpos)
    rw [List.cons_append,List.cons_append,List.append_assoc,readValue,if_neg (by decide),if_pos rfl,
      skip_gap hgap]
    by_cases hne : items = []
    · subst hne
      rw [SpellsItems] at hitems
      subst hitems
      rfl
    · obtain ⟨hskip,hhead⟩ := items_head hne hitems rest
      simp only [List.length_append,List.length_cons] at hfuel
      have hshort : body.length < fuel := by omega
      rw [hskip,if_neg hhead,readItems_spells items hne hitems hshort]
      rfl
  | dict items =>
    rw [Spells] at h
    obtain ⟨gap,body,hgap,honce,hitems,rfl⟩ := h
    obtain ⟨fuel,rfl⟩ := Nat.exists_eq_succ_of_ne_zero (Nat.pos_iff_ne_zero.mp hpos)
    rw [List.cons_append,List.cons_append,List.append_assoc,readValue,if_neg (by decide),
      if_neg (by decide),if_pos rfl,skip_gap hgap]
    by_cases hne : items = []
    · subst hne
      rw [SpellsFields] at hitems
      subst hitems
      rfl
    · obtain ⟨hskip,hhead⟩ := fields_head hne hitems rest
      simp only [List.length_append,List.length_cons] at hfuel
      have hshort : body.length < fuel := by omega
      obtain ⟨pairs,hread,rfl⟩ := readFields_spells items hne hitems hshort
      rw [hskip,if_neg hhead,hread,Option.bind_some,uniqueObject_dict honce]
      rfl
  | tuple items => rw [Spells] at h; exact h.elim
  | other => rw [Spells] at h; exact h.elim

theorem readItems_spells (items : List Value) {text rest : List Char} {fuel : ℕ} (hne : items ≠ [])
    (h : SpellsItems items text) (hfuel : text.length < fuel) :
    readItems fuel (text++rest) = some (items,rest) := by
  cases items with
  | nil => exact absurd rfl hne
  | cons item items =>
    rw [SpellsItems] at h
    obtain ⟨part,gap,body,hpart,hgap,rfl,hbody⟩ := h
    obtain ⟨fuel,rfl⟩ := Nat.exists_eq_succ_of_ne_zero (Nat.ne_zero_of_lt hfuel)
    simp only [List.length_append] at hfuel
    rcases hbody with ⟨rfl,rfl⟩ | ⟨hmore,next,tail,hnext,htail,rfl⟩
    · have hends : Ends (gap++([']']++rest)) := ends_gap hgap (ends_mark (by decide) rest)
      have hone : ([']'] : List Char).length = 1 := rfl
      have hshort : part.length < fuel := by omega
      rw [List.append_assoc,List.append_assoc,readItems,readValue_spells item hpart hends hshort]
      simp only [Option.bind_some,skip_gap hgap]
      rfl
    · have hends : Ends (gap++(','::next++tail++rest)) := ends_gap hgap (ends_mark (by decide) _)
      simp only [List.length_append,List.length_cons] at hfuel
      have hshort : part.length < fuel := by omega
      have hlater : tail.length < fuel := by omega
      obtain ⟨hskip,-⟩ := items_head hmore htail rest
      have hcomma : skip (','::next++tail++rest) = ','::(next++(tail++rest)) := by
        rw [List.append_assoc]
        exact skip_token (by decide) _
      rw [List.append_assoc,List.append_assoc,readItems,readValue_spells item hpart hends hshort]
      simp only [Option.bind_some,skip_gap hgap,hcomma,skip_gap hnext,hskip]
      rw [readItems_spells items hmore htail hlater]
      rfl

theorem readFields_spells (items : List (Value × Value)) {text rest : List Char} {fuel : ℕ}
    (hne : items ≠ []) (h : SpellsFields items text) (hfuel : text.length < fuel) :
    ∃ pairs, readFields fuel (text++rest) = some (pairs,rest) ∧
      items = pairs.map fun p => (.str p.1,p.2) := by
  cases items with
  | nil => exact absurd rfl hne
  | cons item items =>
    obtain ⟨key,value⟩ := item
    rw [SpellsFields] at h
    obtain ⟨name,label,gap,after,part,final,body,rfl,hlabel,hgap,hafter,hpart,hfinal,rfl,hbody⟩ := h
    obtain ⟨fuel,rfl⟩ := Nat.exists_eq_succ_of_ne_zero (Nat.ne_zero_of_lt hfuel)
    obtain ⟨hvalue,-⟩ := spells_append hpart (final++(body++rest))
    have hcolon : skip (':'::(after++(part++(final++(body++rest))))) =
        ':'::(after++(part++(final++(body++rest)))) := skip_token (by decide) _
    simp only [List.length_append,List.length_cons] at hfuel
    have hshort : part.length < fuel := by omega
    have htext : '"'::label++gap++ ':'::after++part++final++body++rest =
        '"'::(label++(gap++ ':'::(after++(part++(final++(body++rest)))))) := by
      simp only [List.append_assoc,List.cons_append]
    have hends : Ends (body++rest) := by
      rcases hbody with ⟨-,rfl⟩ | ⟨-,next,tail,-,-,rfl⟩
      · exact ends_mark (by decide) rest
      · exact ends_mark (by decide) _
    rw [htext,readFields]
    simp only [readString_string hlabel,Option.bind_some,skip_gap hgap,hcolon,skip_gap hafter,
      hvalue]
    rw [readValue_spells value hpart (ends_gap hfinal hends) hshort]
    simp only [Option.bind_some,skip_gap hfinal]
    rcases hbody with ⟨rfl,rfl⟩ | ⟨hmore,next,tail,hnext,htail,rfl⟩
    · exact ⟨[(plainText name,value)],rfl,rfl⟩
    · simp only [List.length_append,List.length_cons] at hfuel
      have hlater : tail.length < fuel := by omega
      obtain ⟨hskip,-⟩ := fields_head hmore htail rest
      have hcomma : skip (','::next++tail++rest) = ','::(next++(tail++rest)) := by
        rw [List.append_assoc]
        exact skip_token (by decide) _
      obtain ⟨pairs,hread,rfl⟩ := readFields_spells items hmore htail hlater
      refine ⟨(plainText name,value)::pairs,?_,rfl⟩
      simp only [hcomma,skip_gap hnext,hskip]
      rw [hread]
      rfl

end

theorem loads_spells {v : Value} {text : List Char} {frames : ℕ} (h : Spells v text)
    (hframes : nesting v ≤ frames) : loads frames text = some v := by
  have hread := readValue_spells v h ends_nil (Nat.lt_succ_self _)
  obtain ⟨c,tail,rfl,hblank,-,hmark⟩ := spells_head h
  have hplain : (c::tail).head? ≠ some (Char.ofNat 0xfeff) := fun hc =>
    hmark (Option.some_inj.mp hc)
  rw [List.append_nil] at hread
  rw [loads,if_neg hplain,skip_token hblank,hread]
  exact if_pos ⟨rfl,hframes⟩

end LawyerAgent.JsonTexts
