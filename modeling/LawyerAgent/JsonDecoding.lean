import LawyerAgent.JsonTexts

/-!
# How `json.loads` fails

The reader without hooks: the last of the equal keys of an object stays, and
`NaN` and the infinities are numbers. A text ends it in three ways: it is
malformed, an integer has too many digits, or its containers do not fit on the
stack. Only the first is a `JSONDecodeError`.
-/

set_option autoImplicit false

namespace LawyerAgent.JsonDecoding
open JsonText (consume)
open JsonReader (readInt)
open PythonJson
open JsonLoads (isBlank skip readUnits readString readSign readWhole readFraction
  readExponent finiteParts maxDigits readValue readItems readFields nesting itemsNesting
  fieldsNesting uniqueObject joinPairs)
open JsonTexts (Spells loads_spells)

inductive DecodeFailure where
  /-- `JSONDecodeError` -/
  | malformed
  /-- `ValueError`: the digits exceed the limit for integer string conversion. -/
  | tooManyDigits
  /-- `RecursionError` -/
  | tooDeep
deriving DecidableEq

def expect {α : Type} : Option α → Except DecodeFailure α
  | none => .error .malformed
  | some a => .ok a

/-- `items[key] = value` -/
def setItem (items : List (Value × Value)) (key : PyText) (value : Value) :
    List (Value × Value) :=
  if items.any (keyIs key) then
    items.map fun item => if keyIs key item then (item.1,value) else item
  else items++[(.str key,value)]

def dictOf (pairs : List (PyText × Value)) : List (Value × Value) :=
  pairs.foldl (fun items p => setItem items p.1 p.2) []

def scanNumber (text : List Char) : Except DecodeFailure (Value × List Char) :=
  let signed := readSign text
  (expect (readWhole signed.2)).bind fun whole =>
    let fraction := readFraction whole.2
    let exponent := readExponent fraction.2
    if fraction.1 = [] ∧ exponent.1 = [] then
      if maxDigits < whole.1.length then .error .tooManyDigits
      else .ok (.int (readInt (signed.1++whole.1)),exponent.2)
    else if finiteParts whole.1 fraction.1 exponent.1 then
      .ok (.float (some (signed.1++whole.1++fraction.1++exponent.1)),exponent.2)
    else .ok (.float none,exponent.2)

def constants : List (String × Value) :=
  [("null",.none),("true",.bool true),("false",.bool false),("NaN",.float none),
    ("Infinity",.float none),("-Infinity",.float none)]

def scanConstant (text : List Char) : List (String × Value) → Option (Value × List Char)
  | [] => none
  | (name,value)::names =>
    match consume name.toList text with
    | some rest => some (value,rest)
    | none => scanConstant text names

def scanScalar (text : List Char) : Except DecodeFailure (Value × List Char) :=
  match scanConstant text constants with
  | some p => .ok p
  | none => scanNumber text

mutual

/-- `depth` is the number of containers that still fit on the stack. -/
def scanValue : ℕ → ℕ → List Char → Except DecodeFailure (Value × List Char)
  | _, 0, _ => .error .malformed
  | _, _+1, [] => .error .malformed
  | depth, fuel+1, c::text =>
    if c = '"' then expect ((readString text).map fun p => (.str p.1,p.2))
    else if c = '[' then
      if depth = 0 then .error .tooDeep
      else if (skip text).head? = some ']' then .ok (.list [],(skip text).drop 1)
      else (scanItems (depth-1) fuel (skip text)).map fun p => (.list p.1,p.2)
    else if c = '\x7b' then
      if depth = 0 then .error .tooDeep
      else if (skip text).head? = some '\x7d' then .ok (.dict [],(skip text).drop 1)
      else (scanFields (depth-1) fuel (skip text)).map fun p => (.dict (dictOf p.1),p.2)
    else scanScalar (c::text)

def scanItems : ℕ → ℕ → List Char → Except DecodeFailure (List Value × List Char)
  | _, 0, _ => .error .malformed
  | depth, fuel+1, text =>
    (scanValue depth fuel text).bind fun p =>
      match skip p.2 with
      | ','::rest => (scanItems depth fuel (skip rest)).map fun q => (p.1::q.1,q.2)
      | ']'::rest => .ok ([p.1],rest)
      | _ => .error .malformed

def scanFields : ℕ → ℕ → List Char → Except DecodeFailure (List (PyText × Value) × List Char)
  | _, 0, _ => .error .malformed
  | depth, fuel+1, text =>
    if text.head? = some '"' then
      (expect (readString (text.drop 1))).bind fun key =>
        match skip key.2 with
        | ':'::text =>
          (scanValue depth fuel (skip text)).bind fun p =>
            match skip p.2 with
            | ','::rest => (scanFields depth fuel (skip rest)).map fun q => ((key.1,p.1)::q.1,q.2)
            | '\x7d'::rest => .ok ([(key.1,p.1)],rest)
            | _ => .error .malformed
        | _ => .error .malformed
    else .error .malformed

end

def loadsWith (fuel frames : ℕ) (text : List Char) : Except DecodeFailure Value :=
  if text.head? = some (Char.ofNat 0xfeff) then .error .malformed
  else (scanValue frames fuel (skip text)).bind fun p =>
    if skip p.2 = [] then .ok p.1 else .error .malformed

/-- `json.loads`; no text needs more fuel than this (`loads_fuel`). -/
def loads (frames : ℕ) (text : List Char) : Except DecodeFailure Value :=
  loadsWith (2*text.length+2) frames text

theorem map_ok {α β ε : Type} {x : Except ε α} {f : α → β} {b : β} :
    x.map f = .ok b ↔ ∃ a, x = .ok a ∧ f a = b := by
  cases x <;> simp [Except.map]

theorem bind_ok {α β ε : Type} {x : Except ε α} {f : α → Except ε β} {b : β} :
    x.bind f = .ok b ↔ ∃ a, x = .ok a ∧ f a = .ok b := by
  cases x <;> simp [Except.bind]

theorem expect_ok {α : Type} {x : Option α} {a : α} : expect x = .ok a ↔ x = some a := by
  cases x <;> simp [expect]

variable {rest left text : List Char} {value : Value} {pairs : List (PyText × Value)}

inductive Quoting where
  | outside
  | inside
  | escaped
deriving DecidableEq

def quote : Quoting → Char → Quoting
  | .outside, c => if c = '"' then .inside else .outside
  | .inside, c => if c = '"' then .outside else if c = '\\' then .escaped else .inside
  | .escaped, _ => .inside

def quoting (s : Quoting) (text : List Char) : Quoting := text.foldl quote s

/-- Strings are taken from the front of a text as a whole. -/
def Taken (text rest : List Char) : Prop :=
  ∃ used, text = used++rest ∧ quoting .outside used = .outside

theorem quoting_append (s : Quoting) (text rest : List Char) :
    quoting s (text++rest) = quoting (quoting s text) rest := List.foldl_append

theorem taken_plain (used rest : List Char) (h : ∀ c ∈ used, c ≠ '"') :
    Taken (used++rest) rest := by
  refine ⟨used,rfl,?_⟩
  induction used with
  | nil => rfl
  | cons c used ih =>
    obtain ⟨hc,hused⟩ := List.forall_mem_cons.mp h
    have hquote : quote .outside c = .outside := if_neg hc
    rw [quoting,List.foldl_cons,hquote]
    exact ih hused

theorem taken_trans (h : Taken text rest) (k : Taken rest left) : Taken text left := by
  obtain ⟨used,rfl,hused⟩ := h
  obtain ⟨more,rfl,hmore⟩ := k
  exact ⟨used++more,by simp,by rw [quoting_append,hused,hmore]⟩

theorem taken_cons {c : Char} (hc : c ≠ '"') (h : Taken text rest) : Taken (c::text) rest :=
  taken_trans (taken_plain [c] text (by simpa using hc)) h

theorem taken_length (h : Taken text rest) : rest.length ≤ text.length := by
  obtain ⟨used,rfl,-⟩ := h
  rw [List.length_append]
  omega

theorem taken_dropWhile {p : Char → Bool} (hp : p '"' = false) (text : List Char) :
    Taken text (text.dropWhile p) := by
  have hplain := taken_plain (text.takeWhile p) (text.dropWhile p) fun c hc => by
    rintro rfl
    have hquote := List.all_eq_true.mp List.all_takeWhile _ hc
    rw [hp] at hquote
    cases hquote
  rwa [List.takeWhile_append_dropWhile] at hplain

theorem skip_taken (text : List Char) : Taken text (skip text) :=
  taken_dropWhile (by decide) text

theorem skip_length (text : List Char) : (skip text).length ≤ text.length :=
  taken_length (skip_taken text)

theorem skip_cons {c : Char} (hc : c ≠ '"') (h : skip text = c::rest) :
    Taken text rest ∧ rest.length < text.length := by
  have hskip := skip_taken text
  have hlength := skip_length text
  rw [h] at hskip
  rw [h,List.length_cons] at hlength
  exact ⟨taken_trans hskip (taken_cons hc ⟨[],rfl,rfl⟩),by omega⟩

theorem readUnits_taken {units : PyText} (h : readUnits text = some (units,rest)) :
    ∃ used, text = used++rest ∧ quoting .inside used = .outside := by
  have hhex : ∀ {c : Char} {n : ℕ}, JsonLoads.hexDigit c = some n → quote .inside c = .inside := by
    intro c n hn
    have hne : c ≠ '"' ∧ c ≠ '\\' := by
      constructor <;> rintro rfl <;> cases hn
    rw [quote,if_neg hne.1,if_neg hne.2]
  fun_induction readUnits text generalizing units rest with
  | case1 => cases h
  | case2 text =>
    cases h
    exact ⟨['"'],rfl,rfl⟩
  | case3 a b c d text ih =>
    obtain ⟨n,hunit,hn⟩ := Option.bind_eq_some_iff.mp h
    obtain ⟨p,hp,hrest⟩ := Option.map_eq_some_iff.mp hn
    cases hrest
    obtain ⟨used,rfl,hused⟩ := ih hp
    simp only [JsonLoads.hexUnit,Option.bind_eq_bind,Option.bind_eq_some_iff] at hunit
    obtain ⟨_,ha,_,hb,_,hc,_,hd,-⟩ := hunit
    refine ⟨'\\':: 'u'::a::b::c::d::used,rfl,?_⟩
    have hsteps : quoting .inside ('\\':: 'u'::a::b::c::d::used) = quoting (quote (quote (quote
        (quote .inside a) b) c) d) used := rfl
    rw [hsteps,hhex ha,hhex hb,hhex hc,hhex hd,hused]
  | case4 e text hu ih =>
    obtain ⟨n,-,hn⟩ := Option.bind_eq_some_iff.mp h
    obtain ⟨p,hp,hrest⟩ := Option.map_eq_some_iff.mp hn
    cases hrest
    obtain ⟨used,rfl,hused⟩ := ih hp
    exact ⟨'\\'::e::used,rfl,hused⟩
  | case5 => cases h
  | case6 c text hq hu hs hc ih =>
    obtain ⟨p,hp,hrest⟩ := Option.map_eq_some_iff.mp h
    cases hrest
    obtain ⟨used,rfl,hused⟩ := ih hp
    have hquote : c ≠ '"' := by
      rintro rfl
      exact hq rfl
    refine ⟨c::used,rfl,?_⟩
    rw [quoting,List.foldl_cons,quote,if_neg hquote,if_neg fun hslash => hc (.inl hslash)]
    exact hused

theorem readString_taken {s : PyText} (h : readString text = some (s,rest)) :
    Taken ('"'::text) rest ∧ rest.length < text.length := by
  obtain ⟨p,hp,hrest⟩ := Option.map_eq_some_iff.mp h
  cases hrest
  obtain ⟨used,rfl,hused⟩ := readUnits_taken hp
  refine ⟨⟨'"'::used,rfl,hused⟩,?_⟩
  cases used with
  | nil => cases hused
  | cons c used =>
    rw [List.length_append,List.length_cons]
    omega

theorem digits_taken (text : List Char) : Taken text (text.dropWhile Char.isDigit) :=
  taken_dropWhile (by decide) text

theorem taken_refl (text : List Char) : Taken text text := ⟨[],rfl,rfl⟩

theorem readSign_taken (text : List Char) : Taken text (readSign text).2 := by
  unfold readSign
  split
  · exact taken_cons (by decide) (taken_refl _)
  · exact taken_refl _

theorem readWhole_taken {p : List Char × List Char} (h : readWhole text = some p) :
    Taken text p.2 ∧ p.2.length < text.length := by
  cases text with
  | nil => cases h
  | cons c rest =>
    have hdigits := digits_taken rest
    have hlength := taken_length hdigits
    simp only [readWhole] at h
    rw [List.length_cons]
    split_ifs at h with hzero hdigit
    · cases h
      exact ⟨taken_cons (by rw [hzero]; decide) (taken_refl _),Nat.lt_succ_self _⟩
    · cases h
      refine ⟨taken_cons ?_ hdigits,by simp only; omega⟩
      rintro rfl
      cases hdigit

theorem readFraction_taken (text : List Char) : Taken text (readFraction text).2 := by
  unfold readFraction
  split
  · rename_i rest
    split_ifs
    · exact taken_refl _
    · exact taken_cons (by decide) (digits_taken rest)
  · exact taken_refl _

theorem readExponentSign_taken (text : List Char) :
    Taken text (JsonLoads.readExponentSign text).2 := by
  unfold JsonLoads.readExponentSign
  split
  · exact taken_cons (by decide) (taken_refl _)
  · exact taken_cons (by decide) (taken_refl _)
  · exact taken_refl _

theorem readExponent_taken (text : List Char) : Taken text (readExponent text).2 := by
  cases text with
  | nil => exact taken_refl _
  | cons c rest =>
    simp only [readExponent]
    split_ifs with hexponent
    · have hletter : c ≠ '"' := by
        rintro rfl
        simp at hexponent
      exact taken_cons hletter (taken_trans (readExponentSign_taken rest) (digits_taken _))
    · exact taken_refl _

theorem scanNumber_taken {p : Value × List Char} (h : scanNumber text = .ok p) :
    Taken text p.2 ∧ p.2.length < text.length := by
  obtain ⟨whole,hwhole,hp⟩ := bind_ok.mp h
  have hsign := readSign_taken text
  obtain ⟨htaken,hshort⟩ := readWhole_taken (expect_ok.mp hwhole)
  have hfraction := readFraction_taken whole.2
  have hexponent := readExponent_taken (readFraction whole.2).2
  have hrest : p.2 = (readExponent (readFraction whole.2).2).2 := by
    simp only at hp
    split_ifs at hp <;> cases hp <;> rfl
  have hlength := taken_length (taken_trans hfraction hexponent)
  have hsigned := taken_length hsign
  rw [hrest]
  exact ⟨taken_trans hsign (taken_trans htaken (taken_trans hfraction hexponent)),by omega⟩

theorem consume_eq {word : List Char} (h : consume word text = some rest) : text = word++rest := by
  induction word generalizing text with
  | nil =>
    cases h
    rfl
  | cons c word ih =>
    cases text with
    | nil => cases h
    | cons d text =>
      simp only [consume] at h
      split_ifs at h with hcd
      rw [hcd,ih h]
      rfl

theorem scanConstant_taken {names : List (String × Value)}
    (hnames : ∀ n ∈ names, n.1.toList ≠ [] ∧ ∀ c ∈ n.1.toList, c ≠ '"')
    (h : scanConstant text names = some (value,left)) :
    Taken text left ∧ left.length < text.length := by
  induction names with
  | nil => cases h
  | cons name names ih =>
    obtain ⟨⟨hname,hplain⟩,hrest⟩ := List.forall_mem_cons.mp hnames
    unfold scanConstant at h
    cases hconsume : consume name.1.toList text with
    | none =>
      rw [hconsume] at h
      exact ih hrest h
    | some rest =>
      rw [hconsume] at h
      cases h
      have hpos := List.length_pos_iff.mpr hname
      rw [consume_eq hconsume,List.length_append]
      exact ⟨taken_plain _ _ hplain,by omega⟩

theorem scanScalar_taken (h : scanScalar text = .ok (value,left)) :
    Taken text left ∧ left.length < text.length := by
  unfold scanScalar at h
  cases hconstant : scanConstant text constants with
  | none =>
    rw [hconstant] at h
    exact scanNumber_taken h
  | some q =>
    rw [hconstant] at h
    cases h
    exact scanConstant_taken (by simp [constants]) hconstant

theorem drop_taken {c : Char} (hc : c ≠ '"') (h : (skip text).head? = some c) :
    Taken text ((skip text).drop 1) := by
  obtain ⟨tail,htail⟩ := List.head?_eq_some_iff.mp h
  rw [htail]
  exact (skip_cons hc htail).1

theorem scan_taken (fuel : ℕ) :
    (∀ depth text value left, scanValue depth fuel text = .ok (value,left) →
      Taken text left ∧ left.length < text.length) ∧
    (∀ depth text items left, scanItems depth fuel text = .ok (items,left) →
      Taken text left ∧ left.length < text.length) ∧
    ∀ depth text pairs left, scanFields depth fuel text = .ok (pairs,left) →
      Taken text left ∧ left.length < text.length := by
  induction fuel with
  | zero =>
    refine ⟨?_,?_,?_⟩
    · intro depth text value left h
      rw [scanValue] at h
      cases h
    · intro depth text value left h
      rw [scanItems] at h
      cases h
    · intro depth text value left h
      rw [scanFields] at h
      cases h
  | succ fuel ih =>
    obtain ⟨ihValue,ihItems,ihFields⟩ := ih
    refine ⟨?_,?_,?_⟩
    · intro depth text value left h
      cases text with
      | nil =>
        rw [scanValue] at h
        cases h
      | cons c text =>
        have hskip := skip_taken text
        have hinside : c ≠ '"' → Taken text left →
            Taken (c::text) left ∧ left.length < (c::text).length :=
          fun hc ht => ⟨taken_cons hc ht,Nat.lt_succ_of_le (taken_length ht)⟩
        rw [scanValue] at h
        split_ifs at h with hquote hlist _ hempty hdict _ hempty
        · obtain ⟨q,hq,heq⟩ := Option.map_eq_some_iff.mp (expect_ok.mp h)
          cases heq
          obtain ⟨hstring,hshort⟩ := readString_taken hq
          rw [hquote,List.length_cons]
          exact ⟨hstring,by omega⟩
        · cases h
          exact hinside hquote (drop_taken (by decide) hempty)
        · obtain ⟨q,hq,heq⟩ := map_ok.mp h
          cases heq
          exact hinside hquote (taken_trans hskip (ihItems _ _ _ _ hq).1)
        · cases h
          exact hinside hquote (drop_taken (by decide) hempty)
        · obtain ⟨q,hq,heq⟩ := map_ok.mp h
          cases heq
          exact hinside hquote (taken_trans hskip (ihFields _ _ _ _ hq).1)
        · exact scanScalar_taken h
    · intro depth text value left h
      rw [scanItems] at h
      obtain ⟨q,hq,h⟩ := bind_ok.mp h
      obtain ⟨hvalue,hshort⟩ := ihValue _ _ _ _ hq
      have hfinish : Taken q.2 left → Taken text left ∧ left.length < text.length :=
        fun ht => ⟨taken_trans hvalue ht,lt_of_le_of_lt (taken_length ht) hshort⟩
      split at h
      · rename_i rest hrest
        obtain ⟨r,hr,heq⟩ := map_ok.mp h
        cases heq
        exact hfinish (taken_trans (skip_cons (by decide) hrest).1
          (taken_trans (skip_taken rest) (ihItems _ _ _ _ hr).1))
      · rename_i rest hrest
        cases h
        exact hfinish (skip_cons (by decide) hrest).1
      · cases h
    · intro depth text value left h
      rw [scanFields] at h
      split_ifs at h with hhead
      · obtain ⟨body,rfl⟩ := List.head?_eq_some_iff.mp hhead
        obtain ⟨key,hkey,h⟩ := bind_ok.mp h
        obtain ⟨hlabel,hshort⟩ := readString_taken (expect_ok.mp hkey)
        rw [List.drop_one,List.tail_cons] at hlabel hshort
        have hfinish : Taken key.2 left →
            Taken ('"'::body) left ∧ left.length < ('"'::body).length := by
          intro ht
          have hlength := taken_length ht
          rw [List.length_cons]
          exact ⟨taken_trans hlabel ht,by omega⟩
        split at h
        · rename_i tail htail
          obtain ⟨q,hq,h⟩ := bind_ok.mp h
          have hvalue := taken_trans (skip_cons (by decide) htail).1
            (taken_trans (skip_taken tail) (ihValue _ _ _ _ hq).1)
          split at h
          · rename_i rest hrest
            obtain ⟨r,hr,heq⟩ := map_ok.mp h
            cases heq
            exact hfinish (taken_trans hvalue (taken_trans (skip_cons (by decide) hrest).1
              (taken_trans (skip_taken rest) (ihFields _ _ _ _ hr).1)))
          · rename_i rest hrest
            cases h
            exact hfinish (taken_trans hvalue (skip_cons (by decide) hrest).1)
          · cases h
        · cases h

theorem scan_fuel (fuel : ℕ) :
    (∀ depth text, 2*text.length+1 ≤ fuel →
      scanValue depth (fuel+1) text = scanValue depth fuel text) ∧
    (∀ depth text, 2*text.length+2 ≤ fuel →
      scanItems depth (fuel+1) text = scanItems depth fuel text) ∧
    ∀ depth text, 2*text.length+2 ≤ fuel →
      scanFields depth (fuel+1) text = scanFields depth fuel text := by
  induction fuel with
  | zero => exact ⟨fun _ _ h => by omega,fun _ _ h => by omega,fun _ _ h => by omega⟩
  | succ fuel ih =>
    obtain ⟨ihValue,ihItems,ihFields⟩ := ih
    refine ⟨?_,?_,?_⟩
    · intro depth text h
      cases text with
      | nil => rw [scanValue,scanValue]
      | cons c text =>
        have hskip := skip_length text
        rw [List.length_cons] at h
        rw [scanValue,scanValue,ihItems _ _ (by omega),ihFields _ _ (by omega)]
    · intro depth text h
      rw [scanItems,scanItems,ihValue _ _ (by omega)]
      cases hvalue : scanValue depth fuel text with
      | error e => rfl
      | ok p =>
        have hshort := ((scan_taken fuel).1 _ _ _ _ hvalue).2
        simp only [Except.bind]
        split
        · rename_i rest hrest
          have hcomma := skip_cons (by decide) hrest
          have hskip := skip_length rest
          rw [ihItems _ _ (by omega)]
        · rfl
        · rfl
    · intro depth text h
      have hdrop : (text.drop 1).length ≤ text.length := by
        rw [List.length_drop]
        omega
      rw [scanFields,scanFields]
      split_ifs
      · cases hkey : expect (readString (text.drop 1)) with
        | error e => rfl
        | ok key =>
          have hlabel := (readString_taken (expect_ok.mp hkey)).2
          simp only [Except.bind]
          split
          · rename_i tail htail
            have hcolon := skip_cons (by decide) htail
            have hgap := skip_length tail
            rw [ihValue _ _ (by omega)]
            cases hvalue : scanValue depth fuel (skip tail) with
            | error e => rfl
            | ok p =>
              have hshort := ((scan_taken fuel).1 _ _ _ _ hvalue).2
              simp only
              split
              · rename_i rest hrest
                have hcomma := skip_cons (by decide) hrest
                have hskip := skip_length rest
                rw [ihFields _ _ (by omega)]
              · rfl
              · rfl
          · rfl
      · rfl

/-- The fuel of `loads` never runs out. -/
theorem loads_fuel (frames more : ℕ) (text : List Char) :
    loadsWith (2*text.length+2+more) frames text = loads frames text := by
  induction more with
  | zero => rfl
  | succ more ih =>
    have hskip := skip_length text
    rw [← ih,loadsWith,loadsWith,← Nat.add_assoc,
      (scan_fuel (2*text.length+2+more)).1 frames (skip text) (by omega)]

mutual

def textual : Value → Bool
  | .str _ => true
  | .list items => itemsTextual items
  | .dict items => fieldsTextual items
  | _ => false

def itemsTextual : List Value → Bool
  | [] => true
  | item::items => textual item && itemsTextual items

def fieldsTextual : List (Value × Value) → Bool
  | [] => true
  | (_,value)::items => textual value && fieldsTextual items

end

def entries (pairs : List (PyText × Value)) : List (Value × Value) :=
  pairs.map fun p => (.str p.1,p.2)

theorem keyIs_str (name key : PyText) (value : Value) :
    keyIs name (.str key,value) = decide (key = name) := rfl

theorem setItem_fresh {key : PyText} (h : key ∉ pairs.map Prod.fst) :
    setItem (entries pairs) key value = entries (pairs++[(key,value)]) := by
  have hnone : ¬(entries pairs).any (keyIs key) = true := by
    intro hany
    obtain ⟨item,hitem,hkey⟩ := List.any_eq_true.mp hany
    obtain ⟨q,hq,rfl⟩ := List.mem_map.mp hitem
    rw [keyIs_str,decide_eq_true_eq] at hkey
    exact h (hkey ▸ List.mem_map_of_mem hq)
  rw [setItem,if_neg hnone,entries,entries,List.map_append]
  rfl

theorem dictOf_nodup (h : (pairs.map Prod.fst).Nodup) :
    dictOf pairs = entries pairs := by
  have hfold : ∀ rest front : List (PyText × Value), ((front++rest).map Prod.fst).Nodup →
      rest.foldl (fun items p => setItem items p.1 p.2) (entries front) =
        entries (front++rest) := by
    intro rest
    induction rest with
    | nil =>
      intro front _
      rw [List.append_nil]
      rfl
    | cons p rest ih =>
      intro front hnodup
      have hfresh : p.1 ∉ front.map Prod.fst := by
        rw [List.map_append,List.nodup_append] at hnodup
        intro hmem
        exact hnodup.2.2 _ hmem _ List.mem_cons_self rfl
      have hsplit : front++p::rest = (front++[p])++rest := by simp
      rw [hsplit] at hnodup ⊢
      rw [List.foldl_cons,setItem_fresh hfresh]
      exact ih _ hnodup
  exact hfold pairs [] h

theorem uniqueObject_some (h : uniqueObject pairs = some value) :
    value = .dict (entries pairs) ∧ dictOf pairs = entries pairs := by
  unfold uniqueObject at h
  split_ifs at h with hnodup
  cases h
  exact ⟨rfl,dictOf_nodup hnodup⟩

theorem readScalar_textual (h : JsonLoads.readScalar text = some (value,rest)) :
    textual value = false := by
  unfold JsonLoads.readScalar at h
  split at h
  · cases h
    rfl
  split at h
  · cases h
    rfl
  split at h
  · cases h
    rfl
  obtain ⟨whole,-,hvalue⟩ := Option.bind_eq_some_iff.mp h
  simp only at hvalue
  split_ifs at hvalue <;> cases hvalue <;> rfl

theorem readFields_quote {fuel : ℕ} (h : readFields (fuel+1) text = some (pairs,rest)) :
    ∃ body, text = '"'::body ∧
      (readString body).bind (fun key =>
        match skip key.2 with
        | ':'::text =>
          (readValue fuel (skip text)).bind fun p =>
            match skip p.2 with
            | ','::rest => (readFields fuel (skip rest)).map fun q => ((key.1,p.1)::q.1,q.2)
            | '\x7d'::rest => some ([(key.1,p.1)],rest)
            | _ => none
        | _ => none) = some (pairs,rest) := by
  by_cases hquote : ∃ body, text = '"'::body
  · obtain ⟨body,rfl⟩ := hquote
    rw [readFields] at h
    exact ⟨body,rfl,h⟩
  · rw [readFields] at h
    · cases h
    · exact fun body hbody => hquote ⟨body,hbody⟩

theorem scanFields_quote (depth fuel : ℕ) (body : List Char) :
    scanFields depth (fuel+1) ('"'::body) = (expect (readString body)).bind fun key =>
      match skip key.2 with
      | ':'::text =>
        (scanValue depth fuel (skip text)).bind fun p =>
          match skip p.2 with
          | ','::rest => (scanFields depth fuel (skip rest)).map fun q => ((key.1,p.1)::q.1,q.2)
          | '\x7d'::rest => .ok ([(key.1,p.1)],rest)
          | _ => .error .malformed
      | _ => .error .malformed := by
  rw [scanFields]
  exact if_pos rfl

theorem scan_read (fuel : ℕ) :
    (∀ depth more text value rest, fuel ≤ more → readValue fuel text = some (value,rest) →
      textual value = true → nesting value ≤ depth →
      scanValue depth more text = .ok (value,rest)) ∧
    (∀ depth more text items rest, fuel ≤ more → readItems fuel text = some (items,rest) →
      itemsTextual items = true → itemsNesting items ≤ depth →
      scanItems depth more text = .ok (items,rest)) ∧
    ∀ depth more text pairs rest, fuel ≤ more → readFields fuel text = some (pairs,rest) →
      fieldsTextual (entries pairs) = true → fieldsNesting (entries pairs) ≤ depth →
      scanFields depth more text = .ok (pairs,rest) := by
  induction fuel with
  | zero =>
    refine ⟨?_,?_,?_⟩
    · intro depth more text value rest _ h
      rw [readValue] at h
      cases h
    · intro depth more text items rest _ h
      rw [readItems] at h
      cases h
    · intro depth more text pairs rest _ h
      rw [readFields] at h
      cases h
  | succ fuel ih =>
    obtain ⟨ihValue,ihItems,ihFields⟩ := ih
    refine ⟨?_,?_,?_⟩
    · intro depth more text value rest hmore h htextual hdepth
      obtain ⟨more,rfl⟩ := Nat.exists_eq_succ_of_ne_zero (show more ≠ 0 by omega)
      have hless : fuel ≤ more := Nat.le_of_succ_le_succ hmore
      cases text with
      | nil =>
        rw [readValue] at h
        cases h
      | cons c text =>
        rw [readValue] at h
        rw [scanValue]
        by_cases hquote : c = '"'
        · rw [if_pos hquote] at h ⊢
          exact expect_ok.mpr h
        rw [if_neg hquote] at h ⊢
        by_cases hlist : c = '['
        · rw [if_pos hlist] at h ⊢
          by_cases hempty : (skip text).head? = some ']'
          · rw [if_pos hempty] at h
            cases h
            rw [nesting] at hdepth
            rw [if_neg (by omega),if_pos hempty]
          · rw [if_neg hempty] at h
            obtain ⟨p,hp,heq⟩ := Option.map_eq_some_iff.mp h
            cases heq
            rw [nesting] at hdepth
            rw [textual] at htextual
            rw [if_neg (by omega),if_neg hempty,
              ihItems (depth-1) _ _ _ _ hless hp htextual (by omega)]
            rfl
        rw [if_neg hlist] at h ⊢
        by_cases hdict : c = '\x7b'
        · rw [if_pos hdict] at h ⊢
          by_cases hempty : (skip text).head? = some '\x7d'
          · rw [if_pos hempty] at h
            cases h
            rw [nesting] at hdepth
            rw [if_neg (by omega),if_pos hempty]
          · rw [if_neg hempty] at h
            obtain ⟨p,hp,hvalue⟩ := Option.bind_eq_some_iff.mp h
            obtain ⟨v,hv,heq⟩ := Option.map_eq_some_iff.mp hvalue
            obtain ⟨hentries,honce⟩ := uniqueObject_some hv
            cases heq
            rw [hentries,nesting] at hdepth
            rw [hentries,textual] at htextual
            rw [if_neg (by omega),if_neg hempty,
              ihFields (depth-1) _ _ _ _ hless hp htextual (by omega),hentries,← honce]
            rfl
        · rw [if_neg hdict] at h
          rw [readScalar_textual h] at htextual
          cases htextual
    · intro depth more text items rest hmore h htextual hdepth
      obtain ⟨more,rfl⟩ := Nat.exists_eq_succ_of_ne_zero (show more ≠ 0 by omega)
      have hless : fuel ≤ more := Nat.le_of_succ_le_succ hmore
      rw [readItems] at h
      obtain ⟨p,hp,h⟩ := Option.bind_eq_some_iff.mp h
      have hitem : ∀ others, items = p.1::others → scanValue depth more text = .ok p := by
        rintro others rfl
        rw [itemsTextual,Bool.and_eq_true] at htextual
        rw [itemsNesting] at hdepth
        exact ihValue _ _ _ _ _ hless hp htextual.1 (by omega)
      rw [scanItems]
      split at h
      · rename_i tail htail
        obtain ⟨q,hq,heq⟩ := Option.map_eq_some_iff.mp h
        cases heq
        rw [hitem _ rfl]
        rw [itemsTextual,Bool.and_eq_true] at htextual
        rw [itemsNesting] at hdepth
        simp only [Except.bind,htail]
        rw [ihItems _ _ _ _ _ hless hq htextual.2 (by omega)]
        rfl
      · rename_i tail htail
        cases h
        rw [hitem _ rfl]
        simp only [Except.bind,htail]
      · cases h
    · intro depth more text pairs rest hmore h htextual hdepth
      obtain ⟨more,rfl⟩ := Nat.exists_eq_succ_of_ne_zero (show more ≠ 0 by omega)
      have hless : fuel ≤ more := Nat.le_of_succ_le_succ hmore
      obtain ⟨body,rfl,h⟩ := readFields_quote h
      obtain ⟨key,hkey,h⟩ := Option.bind_eq_some_iff.mp h
      split at h
      · rename_i tail htail
        obtain ⟨p,hp,h⟩ := Option.bind_eq_some_iff.mp h
        have hvalue : ∀ others, pairs = (key.1,p.1)::others →
            scanValue depth more (skip tail) = .ok p := by
          rintro others rfl
          rw [entries,List.map_cons,fieldsTextual,Bool.and_eq_true] at htextual
          rw [entries,List.map_cons,fieldsNesting] at hdepth
          exact ihValue _ _ _ _ _ hless hp htextual.1 (le_trans (le_max_left _ _) hdepth)
        rw [scanFields_quote,hkey]
        simp only [expect,Except.bind,htail]
        split at h
        · rename_i left hleft
          obtain ⟨q,hq,heq⟩ := Option.map_eq_some_iff.mp h
          cases heq
          rw [hvalue _ rfl]
          rw [entries,List.map_cons,fieldsTextual,Bool.and_eq_true] at htextual
          rw [entries,List.map_cons,fieldsNesting] at hdepth
          simp only [hleft]
          rw [ihFields _ _ _ _ _ hless hq htextual.2 (by rw [entries]; omega)]
          rfl
        · rename_i left hleft
          cases h
          rw [hvalue _ rfl]
          simp only [hleft]
        · cases h
      · cases h

theorem loads_read {frames : ℕ} (h : JsonLoads.loads frames text = some value)
    (htextual : textual value = true) :
    loads frames text = .ok value := by
  unfold JsonLoads.loads at h
  split_ifs at h with hmark
  cases hread : readValue (text.length+1) (skip text) with
  | none =>
    rw [hread] at h
    cases h
  | some p =>
    rw [hread] at h
    simp only at h
    split_ifs at h with hends
    cases h
    have hscan := (scan_read (text.length+1)).1 frames (2*text.length+2) _ _ _ (by omega) hread
      htextual hends.2
    rw [loads,loadsWith,if_neg hmark,hscan]
    exact if_pos hends.1

theorem loads_text {frames : ℕ} (h : Spells value text) (htextual : textual value = true)
    (hframes : nesting value ≤ frames) :
    loads frames text = .ok value :=
  loads_read (loads_spells h hframes) htextual

end LawyerAgent.JsonDecoding
