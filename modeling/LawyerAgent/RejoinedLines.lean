import LawyerAgent.JsonDecoding

/-!
# Lines that are joined again

`"\n".join(text.splitlines())` turns every line boundary into a newline, also
the ones that JSON allows inside a string. A text of strings is then read as
before or it is malformed.
-/

set_option autoImplicit false

namespace LawyerAgent.RejoinedLines
open PythonJson JsonDecoding
open JsonTexts (Spells ends_nil readValue_spells)
open JsonLoads (isBlank skip hexDigit hexUnit shortEscapes readUnits readString
  readValue readItems readFields nesting itemsNesting fieldsNesting joinPairs)

/-- A character at which `str.splitlines` ends a line. -/
def endsLine (c : Char) : Bool :=
  c.toNat == 10 || c.toNat == 11 || c.toNat == 12 || c.toNat == 13 || c.toNat == 28 ||
    c.toNat == 29 || c.toNat == 30 || c.toNat == 0x85 || c.toNat == 0x2028 || c.toNat == 0x2029

def extendLine (c : Char) : List (List Char) → List (List Char)
  | [] => [[c]]
  | line::lines => (c::line)::lines

def splitlines : List Char → List (List Char)
  | [] => []
  | '\r':: '\n'::rest => []::splitlines rest
  | c::rest => if endsLine c then []::splitlines rest else extendLine c (splitlines rest)

def joinLines (lines : List (List Char)) : List Char := ['\n'].intercalate lines

/-- The second text has a newline for each line boundary of the first. -/
inductive Rejoined : List Char → List Char → Prop
  | nil : Rejoined [] []
  | same {c : Char} {a b : List Char} : endsLine c = false → Rejoined a b →
      Rejoined (c::a) (c::b)
  | ended {c : Char} {a b : List Char} : endsLine c = true → Rejoined a b →
      Rejoined (c::a) ('\n'::b)
  | carriage {a b : List Char} : Rejoined a b → Rejoined ('\r':: '\n'::a) ('\n'::b)

variable {c : Char} {rest text a b : List Char}

theorem splitlines_ended (hc : endsLine c = true) (hrest : c = '\r' → rest.head? ≠ some '\n') :
    splitlines (c::rest) = []::splitlines rest := by
  rw [splitlines,if_pos hc]
  rintro tail rfl rfl
  exact hrest rfl rfl

theorem splitlines_plain (hc : endsLine c = false) :
    splitlines (c::rest) = extendLine c (splitlines rest) := by
  rw [splitlines,if_neg (by rw [hc]; exact Bool.false_ne_true)]
  rintro tail rfl rfl
  exact absurd hc (by decide)

theorem splitlines_cut {line rest : List Char} (hline : ∀ c ∈ line, endsLine c = false)
    (hc : endsLine c = true) (hcarriage : c ≠ '\r') :
    splitlines (line++c::rest) = line::splitlines rest := by
  induction line with
  | nil => exact splitlines_ended hc fun h => absurd h hcarriage
  | cons d line ih =>
    obtain ⟨hd,hline⟩ := List.forall_mem_cons.mp hline
    rw [List.cons_append,splitlines_plain hd,ih hline]
    rfl

theorem splitlines_line {line rest : List Char} (hline : ∀ c ∈ line, endsLine c = false) :
    splitlines (line++ '\n'::rest) = line::splitlines rest :=
  splitlines_cut hline (by decide) (by decide)

theorem splitlines_nonempty (h : text ≠ []) : splitlines text ≠ [] := by
  cases text with
  | nil => exact absurd rfl h
  | cons c rest =>
    unfold splitlines
    split
    · rename_i hnil
      cases hnil
    · simp
    · split_ifs
      · simp
      · unfold extendLine
        split <;> simp

theorem joinLines_ended {lines : List (List Char)} (h : lines ≠ []) :
    joinLines ([]::lines) = '\n'::joinLines lines := by
  obtain ⟨line,rest,rfl⟩ := List.exists_cons_of_ne_nil h
  rfl

theorem joinLines_extend (c : Char) {lines : List (List Char)} (h : lines ≠ []) :
    joinLines (extendLine c lines) = c::joinLines lines := by
  obtain ⟨line,rest,rfl⟩ := List.exists_cons_of_ne_nil h
  cases rest <;> rfl

theorem rejoined_append {a a' b b' : List Char} (h : Rejoined a a') (k : Rejoined b b') :
    Rejoined (a++b) (a'++b') := by
  induction h with
  | nil => exact k
  | same hc _ ih => exact .same hc ih
  | ended hc _ ih => exact .ended hc ih
  | carriage _ ih => exact .carriage ih

theorem joined_rejoined (text : List Char) {tail : List Char}
    (htail : joinLines (splitlines tail) = tail) (hne : tail ≠ [])
    (hhead : tail.head? ≠ some '\n') :
    ∃ text', joinLines (splitlines (text++tail)) = text'++tail ∧ Rejoined text text' := by
  fun_induction splitlines text with
  | case1 => exact ⟨[],htail,.nil⟩
  | case2 rest ih =>
    obtain ⟨rest',hjoin,hrest⟩ := ih
    refine ⟨'\n'::rest',?_,.carriage hrest⟩
    rw [List.cons_append,List.cons_append,splitlines,
      joinLines_ended (splitlines_nonempty (by simp [hne])),hjoin]
    rfl
  | case3 c rest hcarriage hc ih =>
    obtain ⟨rest',hjoin,hrest⟩ := ih
    refine ⟨'\n'::rest',?_,.ended hc hrest⟩
    have hnext : c = '\r' → (rest++tail).head? ≠ some '\n' := by
      intro hr
      cases rest with
      | nil => exact hhead
      | cons d rest => exact fun h => hcarriage rest hr (by rw [Option.some.inj h])
    rw [List.cons_append,splitlines_ended hc hnext,
      joinLines_ended (splitlines_nonempty (by simp [hne])),hjoin]
    rfl
  | case4 c rest hcarriage hc ih =>
    obtain ⟨rest',hjoin,hrest⟩ := ih
    have hplain : endsLine c = false := Bool.eq_false_of_not_eq_true hc
    refine ⟨c::rest',?_,.same hplain hrest⟩
    rw [List.cons_append,splitlines_plain hplain,
      joinLines_extend c (splitlines_nonempty (by simp [hne])),hjoin]
    rfl

theorem rejoined_cons (h : Rejoined (c::a) b) (hc : endsLine c = false) :
    ∃ b', b = c::b' ∧ Rejoined a b' := by
  cases h with
  | same _ hab => exact ⟨_,rfl,hab⟩
  | ended hend _ =>
    rw [hc] at hend
    cases hend
  | carriage _ => exact absurd hc (by decide)

theorem blank_skip (hc : isBlank c = true) (rest : List Char) :
    skip (c::rest) = skip rest := List.dropWhile_cons_of_pos hc

theorem token_skip (hc : isBlank c = false) (rest : List Char) :
    skip (c::rest) = c::rest :=
  List.dropWhile_cons_of_neg (by rw [hc]; exact Bool.false_ne_true)

theorem rejoined_token (h : Rejoined a b) (hskip : skip a = c::rest) (hc : endsLine c = false) :
    ∃ rest', skip b = c::rest' ∧ Rejoined rest rest' := by
  induction h with
  | nil => cases hskip
  | @same d a b hd hab ih =>
    by_cases hblank : isBlank d = true
    · rw [blank_skip hblank] at hskip ⊢
      exact ih hskip
    · have hmark : isBlank d = false := Bool.eq_false_of_not_eq_true hblank
      rw [token_skip hmark] at hskip ⊢
      cases hskip
      exact ⟨b,rfl,hab⟩
  | @ended d a b hd hab ih =>
    by_cases hblank : isBlank d = true
    · rw [blank_skip hblank] at hskip
      rw [blank_skip (by decide)]
      exact ih hskip
    · rw [token_skip (Bool.eq_false_of_not_eq_true hblank)] at hskip
      cases hskip
      rw [hc] at hd
      cases hd
  | carriage hab ih =>
    rw [blank_skip (by decide),blank_skip (by decide)] at hskip
    rw [blank_skip (by decide)]
    exact ih hskip

theorem rejoined_blank (h : Rejoined a b) (hskip : skip a = []) :
    skip b = [] := by
  induction h with
  | nil => rfl
  | @same d a b hd hab ih =>
    by_cases hblank : isBlank d = true
    · rw [blank_skip hblank] at hskip ⊢
      exact ih hskip
    · rw [token_skip (Bool.eq_false_of_not_eq_true hblank)] at hskip
      cases hskip
  | @ended d a b hd hab ih =>
    rw [blank_skip (by decide)]
    by_cases hblank : isBlank d = true
    · rw [blank_skip hblank] at hskip
      exact ih hskip
    · rw [token_skip (Bool.eq_false_of_not_eq_true hblank)] at hskip
      cases hskip
  | carriage hab ih =>
    rw [blank_skip (by decide),blank_skip (by decide)] at hskip
    rw [blank_skip (by decide)]
    exact ih hskip

theorem hexDigit_plain {n : ℕ} (h : hexDigit c = some n) : endsLine c = false := by
  have hrange : 48 ≤ c.toNat ∧ c.toNat ≤ 102 := by
    unfold hexDigit at h
    split_ifs at h with hdigit hlower hupper
    · rw [Char.isDigit,Bool.and_eq_true,decide_eq_true_eq,decide_eq_true_eq] at hdigit
      have hlow : 48 ≤ c.toNat := hdigit.1
      have hhigh : c.toNat ≤ 57 := hdigit.2
      omega
    · omega
    · omega
  simp only [endsLine,Bool.or_eq_false_iff,beq_eq_false_iff_ne]
  omega

theorem hexUnit_plain {a b c d : Char} {n : ℕ} (h : hexUnit a b c d = some n) :
    endsLine a = false ∧ endsLine b = false ∧ endsLine c = false ∧ endsLine d = false := by
  obtain ⟨_,ha,h⟩ := Option.bind_eq_some_iff.mp h
  obtain ⟨_,hb,h⟩ := Option.bind_eq_some_iff.mp h
  obtain ⟨_,hc,h⟩ := Option.bind_eq_some_iff.mp h
  obtain ⟨_,hd,-⟩ := Option.bind_eq_some_iff.mp h
  exact ⟨hexDigit_plain ha,hexDigit_plain hb,hexDigit_plain hc,hexDigit_plain hd⟩

theorem shortEscape_plain {e c : Char} (h : shortEscapes.lookup e = some c) :
    endsLine e = false := by
  have hmem : e ∈ shortEscapes.map Prod.fst := by
    by_contra hnone
    rw [List.lookup_eq_none_iff.mpr] at h
    · cases h
    · intro p hp
      apply bne_iff_ne.mpr
      rintro rfl
      exact hnone (List.mem_map_of_mem hp)
  have hall : (shortEscapes.map Prod.fst).all (fun e => !endsLine e) = true := by decide
  simpa using List.all_eq_true.mp hall e hmem

theorem readUnits_escape {e : Char} (he : e ≠ 'u') :
    readUnits ('\\'::e::rest) =
      (shortEscapes.lookup e).bind fun c => (readUnits rest).map fun p => (.scalar c::p.1,p.2) := by
  rw [readUnits]
  rintro a b c d tail rfl
  exact absurd rfl he

theorem readUnits_plain (hquote : c ≠ '"') (hslash : c ≠ '\\') (hvisible : 32 ≤ c.toNat) :
    readUnits (c::rest) = (readUnits rest).map fun p => (.scalar c::p.1,p.2) := by
  rw [readUnits,if_neg (by simp [hslash]; omega)]
  · exact hquote
  · rintro a b c d tail rfl
    exact absurd rfl hslash
  · rintro e tail rfl
    exact absurd rfl hslash

theorem readUnits_newline (rest : List Char) : readUnits ('\n'::rest) = none := by
  rw [readUnits,if_pos (by decide)] <;> simp

/-- A string is read as before, or one of its line boundaries ends it. -/
theorem rejoined_units {units : PyText} (h : Rejoined a b) (hread : readUnits a = some
      (units,rest)) :
    (∃ rest', readUnits b = some (units,rest') ∧ Rejoined rest rest') ∨ readUnits b = none := by
  fun_induction readUnits a generalizing b units rest with
  | case1 => cases hread
  | case2 text =>
    cases hread
    obtain ⟨b,rfl,hb⟩ := rejoined_cons h (by decide)
    exact Or.inl ⟨b,by rw [readUnits],hb⟩
  | case3 d₁ d₂ d₃ d₄ text ih =>
    obtain ⟨n,hn,hread⟩ := Option.bind_eq_some_iff.mp hread
    obtain ⟨p,hp,heq⟩ := Option.map_eq_some_iff.mp hread
    cases heq
    obtain ⟨h₁,h₂,h₃,h₄⟩ := hexUnit_plain hn
    obtain ⟨b₁,rfl,hslash⟩ := rejoined_cons h (by decide)
    obtain ⟨b₂,rfl,hunit⟩ := rejoined_cons hslash (by decide)
    obtain ⟨b₃,rfl,hfirst⟩ := rejoined_cons hunit h₁
    obtain ⟨b₄,rfl,hsecond⟩ := rejoined_cons hfirst h₂
    obtain ⟨b₅,rfl,hthird⟩ := rejoined_cons hsecond h₃
    obtain ⟨b₆,rfl,hfourth⟩ := rejoined_cons hthird h₄
    rw [readUnits,hn]
    rcases ih hfourth hp with ⟨rest',hrest,hrejoined⟩ | hnone
    · exact Or.inl ⟨rest',by rw [hrest]; rfl,hrejoined⟩
    · exact Or.inr (by rw [hnone]; rfl)
  | case4 e text hu ih =>
    obtain ⟨c,hc,hread⟩ := Option.bind_eq_some_iff.mp hread
    obtain ⟨p,hp,heq⟩ := Option.map_eq_some_iff.mp hread
    cases heq
    have he : e ≠ 'u' := by
      rintro rfl
      have hnone : shortEscapes.lookup 'u' = none := by decide
      rw [hnone] at hc
      cases hc
    obtain ⟨b₁,rfl,hslash⟩ := rejoined_cons h (by decide)
    obtain ⟨b₂,rfl,hletter⟩ := rejoined_cons hslash (shortEscape_plain hc)
    rw [readUnits_escape he,hc]
    rcases ih hletter hp with ⟨rest',hrest,hrejoined⟩ | hnone
    · exact Or.inl ⟨rest',by rw [hrest]; rfl,hrejoined⟩
    · exact Or.inr (by rw [hnone]; rfl)
  | case5 => cases hread
  | case6 c text hquote hu hslash hc ih =>
    obtain ⟨p,hp,heq⟩ := Option.map_eq_some_iff.mp hread
    cases heq
    rw [not_or,not_lt] at hc
    cases h with
    | @same _ _ b hplain hab =>
      have hq : c ≠ '"' := fun heq => hquote heq
      rw [readUnits_plain hq hc.1 hc.2]
      rcases ih hab hp with ⟨rest',hrest,hrejoined⟩ | hnone
      · exact Or.inl ⟨rest',by rw [hrest]; rfl,hrejoined⟩
      · exact Or.inr (by rw [hnone]; rfl)
    | ended => exact Or.inr (readUnits_newline _)
    | carriage => exact absurd hc.2 (by decide)

theorem rejoined_string {s : PyText} (h : Rejoined a b) (hread : readString a = some (s,rest)) :
    (∃ rest', readString b = some (s,rest') ∧ Rejoined rest rest') ∨ readString b = none := by
  obtain ⟨p,hp,heq⟩ := Option.map_eq_some_iff.mp hread
  cases heq
  rcases rejoined_units h hp with ⟨rest',hrest,hrejoined⟩ | hnone
  · exact Or.inl ⟨rest',by rw [readString,hrest]; rfl,hrejoined⟩
  · exact Or.inr (by rw [readString,hnone]; rfl)

/-- The same value behind which the rejoined rest is left, or a malformed text. -/
def ReadAlike {α : Type} (x : Except DecodeFailure (α × List Char)) (value : α)
    (rest : List Char) : Prop :=
  (∃ rest', x = .ok (value,rest') ∧ Rejoined rest rest') ∨ x = .error .malformed

theorem readAlike_map {α β : Type} {x : Except DecodeFailure (α × List Char)} {value : α}
    (h : ReadAlike x value rest) (f : α → β) :
    ReadAlike (x.map fun p => (f p.1,p.2)) (f value) rest := by
  rcases h with ⟨rest',rfl,hrest⟩ | rfl
  · exact Or.inl ⟨rest',rfl,hrest⟩
  · exact Or.inr rfl

theorem readAlike_bind {α β : Type} {x : Except DecodeFailure (α × List Char)} {value : α}
    {rest left : List Char} {result : β}
    {f : α × List Char → Except DecodeFailure (β × List Char)} (h : ReadAlike x value rest)
    (hf : ∀ rest', Rejoined rest rest' → ReadAlike (f (value,rest')) result left) :
    ReadAlike (x.bind f) result left := by
  rcases h with ⟨rest',rfl,hrest⟩ | rfl
  · exact hf rest' hrest
  · exact Or.inr rfl

theorem string_alike {s : PyText} (h : Rejoined a b) (hread : readString a = some (s,rest)) :
    ReadAlike (expect (readString b)) s rest := by
  rcases rejoined_string h hread with ⟨rest',hrest,hrejoined⟩ | hnone
  · exact Or.inl ⟨rest',by rw [hrest]; rfl,hrejoined⟩
  · exact Or.inr (by rw [hnone]; rfl)

theorem rejoined_skip (h : Rejoined a b) (hhead : ∀ c, (skip a).head? = some c → endsLine c =
      false) :
    Rejoined (skip a) (skip b) := by
  cases hskip : skip a with
  | nil =>
    rw [rejoined_blank h hskip]
    exact .nil
  | cons c rest =>
    have hc : endsLine c = false := hhead c (by rw [hskip]; rfl)
    obtain ⟨rest',hb,hrest⟩ := rejoined_token h hskip hc
    rw [hb]
    exact .same hc hrest

theorem value_head {fuel : ℕ} {value : Value} (h : readValue fuel text = some (value,rest))
    (htextual : textual value = true) :
    ∃ c tail, text = c::tail ∧ (c = '"' ∨ c = '[' ∨ c = '\x7b') := by
  cases fuel with
  | zero =>
    rw [readValue] at h
    cases h
  | succ fuel =>
    cases text with
    | nil =>
      rw [readValue] at h
      cases h
    | cons c tail =>
      refine ⟨c,tail,rfl,?_⟩
      by_contra hother
      rw [not_or,not_or] at hother
      rw [readValue,if_neg hother.1,if_neg hother.2.1,if_neg hother.2.2] at h
      rw [readScalar_textual h] at htextual
      cases htextual

theorem token_plain (h : c = '"' ∨ c = '[' ∨ c = '\x7b') : endsLine c = false := by
  rcases h with rfl | rfl | rfl <;> decide

theorem items_head {fuel : ℕ} {items : List Value} (h : readItems fuel text = some (items,rest))
    (htextual : itemsTextual items = true) :
    ∃ c tail, text = c::tail ∧ (c = '"' ∨ c = '[' ∨ c = '\x7b') := by
  cases fuel with
  | zero =>
    rw [readItems] at h
    cases h
  | succ fuel =>
    rw [readItems] at h
    obtain ⟨p,hp,h⟩ := Option.bind_eq_some_iff.mp h
    apply value_head hp
    split at h
    · obtain ⟨q,-,heq⟩ := Option.map_eq_some_iff.mp h
      cases heq
      rw [itemsTextual,Bool.and_eq_true] at htextual
      exact htextual.1
    · cases h
      rw [itemsTextual,Bool.and_eq_true] at htextual
      exact htextual.1
    · cases h

theorem fields_head {fuel : ℕ} {pairs : List (PyText × Value)}
    (h : readFields fuel text = some (pairs,rest)) : ∃ tail, text = '"'::tail := by
  cases fuel with
  | zero =>
    rw [readFields] at h
    cases h
  | succ fuel =>
    obtain ⟨body,hbody,-⟩ := readFields_quote h
    exact ⟨body,hbody⟩

theorem head_plain {text tail : List Char} (h : text = c::tail) (hc : endsLine c = false) :
    ∀ d, text.head? = some d → endsLine d = false := by
  intro d hd
  rw [h] at hd
  rw [← Option.some.inj hd]
  exact hc

/-- A text of strings whose lines were joined again is read as before, or it is
malformed. -/
theorem scan_rejoined (fuel : ℕ) :
    (∀ depth more a b value rest, readValue fuel a = some (value,rest) →
      textual value = true → nesting value ≤ depth → Rejoined a b →
      ReadAlike (scanValue depth more b) value rest) ∧
    (∀ depth more a b items rest, readItems fuel a = some (items,rest) →
      itemsTextual items = true → itemsNesting items ≤ depth → Rejoined a b →
      ReadAlike (scanItems depth more b) items rest) ∧
    ∀ depth more a b pairs rest, readFields fuel a = some (pairs,rest) →
      fieldsTextual (entries pairs) = true → fieldsNesting (entries pairs) ≤ depth →
      Rejoined a b → ReadAlike (scanFields depth more b) pairs rest := by
  induction fuel with
  | zero =>
    refine ⟨?_,?_,?_⟩
    · intro depth more a b value rest h
      rw [readValue] at h
      cases h
    · intro depth more a b items rest h
      rw [readItems] at h
      cases h
    · intro depth more a b pairs rest h
      rw [readFields] at h
      cases h
  | succ fuel ih =>
    obtain ⟨ihValue,ihItems,ihFields⟩ := ih
    refine ⟨?_,?_,?_⟩
    · intro depth more a b value rest h htextual hdepth hab
      cases more with
      | zero => exact Or.inr (by rw [scanValue])
      | succ more =>
      obtain ⟨c,text,rfl,hc⟩ := value_head h htextual
      obtain ⟨b,rfl,hb⟩ := rejoined_cons hab (token_plain hc)
      rw [readValue] at h
      rw [scanValue]
      rcases hc with rfl | rfl | rfl
      · rw [if_pos rfl] at h ⊢
        obtain ⟨p,hp,heq⟩ := Option.map_eq_some_iff.mp h
        cases heq
        rcases rejoined_string hb hp with ⟨rest',hrest,hrejoined⟩ | hnone
        · exact Or.inl ⟨rest',by rw [hrest]; rfl,hrejoined⟩
        · exact Or.inr (by rw [hnone]; rfl)
      · rw [if_neg (by decide),if_pos rfl] at h ⊢
        by_cases hempty : (skip text).head? = some ']'
        · rw [if_pos hempty] at h
          cases h
          rw [nesting] at hdepth
          obtain ⟨tail,htail⟩ := List.head?_eq_some_iff.mp hempty
          obtain ⟨tail',hb',hrest⟩ := rejoined_token hb htail (by decide)
          rw [if_neg (by omega),hb',List.head?_cons,if_pos rfl,htail]
          exact Or.inl ⟨tail',rfl,hrest⟩
        · rw [if_neg hempty] at h
          obtain ⟨p,hp,heq⟩ := Option.map_eq_some_iff.mp h
          cases heq
          rw [nesting] at hdepth
          rw [textual] at htextual
          obtain ⟨d,tail,htail,hd⟩ := items_head hp htextual
          have hskip := rejoined_skip hb (head_plain htail (token_plain hd))
          obtain ⟨tail',htail',-⟩ := rejoined_token hb htail (token_plain hd)
          have hmore : ¬(skip b).head? = some ']' := by
            rw [htail',List.head?_cons]
            rcases hd with rfl | rfl | rfl <;> decide
          rw [if_neg (by omega),if_neg hmore]
          exact readAlike_map (ihItems (depth-1) _ _ _ _ _ hp htextual (by omega) hskip) Value.list
      · rw [if_neg (by decide),if_neg (by decide),if_pos rfl] at h ⊢
        by_cases hempty : (skip text).head? = some '\x7d'
        · rw [if_pos hempty] at h
          cases h
          rw [nesting] at hdepth
          obtain ⟨tail,htail⟩ := List.head?_eq_some_iff.mp hempty
          obtain ⟨tail',hb',hrest⟩ := rejoined_token hb htail (by decide)
          rw [if_neg (by omega),hb',List.head?_cons,if_pos rfl,htail]
          exact Or.inl ⟨tail',rfl,hrest⟩
        · rw [if_neg hempty] at h
          obtain ⟨p,hp,hvalue⟩ := Option.bind_eq_some_iff.mp h
          obtain ⟨v,hv,heq⟩ := Option.map_eq_some_iff.mp hvalue
          obtain ⟨hentries,honce⟩ := uniqueObject_some hv
          cases heq
          rw [hentries,nesting] at hdepth
          rw [hentries,textual] at htextual
          obtain ⟨tail,htail⟩ := fields_head hp
          have hskip := rejoined_skip hb (head_plain htail (by decide))
          obtain ⟨tail',htail',-⟩ := rejoined_token hb htail (by decide)
          have hmore : ¬(skip b).head? = some '\x7d' := by
            rw [htail',List.head?_cons]
            decide
          rw [if_neg (by omega),if_neg hmore,hentries,← honce]
          exact readAlike_map (ihFields (depth-1) _ _ _ _ _ hp htextual (by omega) hskip)
            fun pairs => Value.dict (dictOf pairs)
    · intro depth more a b items rest h htextual hdepth hab
      cases more with
      | zero => exact Or.inr (by rw [scanItems])
      | succ more =>
      rw [readItems] at h
      obtain ⟨p,hp,h⟩ := Option.bind_eq_some_iff.mp h
      have hitem : ∀ others, items = p.1::others →
          ReadAlike (scanValue depth more b) p.1 p.2 := by
        rintro others rfl
        rw [itemsTextual,Bool.and_eq_true] at htextual
        rw [itemsNesting] at hdepth
        exact ihValue _ _ _ _ _ _ hp htextual.1 (le_trans (le_max_left _ _) hdepth) hab
      rw [scanItems]
      split at h
      · rename_i tail htail
        obtain ⟨q,hq,heq⟩ := Option.map_eq_some_iff.mp h
        cases heq
        apply readAlike_bind (hitem _ rfl)
        intro rest' hrest
        obtain ⟨tail',htail',hcomma⟩ := rejoined_token hrest htail (by decide)
        rw [itemsTextual,Bool.and_eq_true] at htextual
        rw [itemsNesting] at hdepth
        obtain ⟨d,left,hleft,hd⟩ := items_head hq htextual.2
        have hskip := rejoined_skip hcomma (head_plain hleft (token_plain hd))
        simp only [htail']
        exact readAlike_map (ihItems _ _ _ _ _ _ hq htextual.2
          (le_trans (le_max_right _ _) hdepth) hskip) (List.cons p.1)
      · rename_i tail htail
        cases h
        apply readAlike_bind (hitem _ rfl)
        intro rest' hrest
        obtain ⟨tail',htail',hclose⟩ := rejoined_token hrest htail (by decide)
        simp only [htail']
        exact Or.inl ⟨tail',rfl,hclose⟩
      · cases h
    · intro depth more a b pairs rest h htextual hdepth hab
      cases more with
      | zero => exact Or.inr (by rw [scanFields])
      | succ more =>
      obtain ⟨body,rfl,h⟩ := readFields_quote h
      obtain ⟨b,rfl,hb⟩ := rejoined_cons hab (by decide)
      obtain ⟨key,hkey,h⟩ := Option.bind_eq_some_iff.mp h
      rw [scanFields_quote]
      split at h
      · rename_i tail htail
        obtain ⟨p,hp,h⟩ := Option.bind_eq_some_iff.mp h
        apply readAlike_bind (string_alike hb hkey)
        intro rest₁ hrest₁
        obtain ⟨tail',htail',hcolon⟩ := rejoined_token hrest₁ htail (by decide)
        simp only [htail']
        have hvalue : ∀ others, pairs = (key.1,p.1)::others →
            ReadAlike (scanValue depth more (skip tail')) p.1 p.2 := by
          rintro others rfl
          rw [entries,List.map_cons,fieldsTextual,Bool.and_eq_true] at htextual
          rw [entries,List.map_cons,fieldsNesting] at hdepth
          obtain ⟨d,left,hleft,hd⟩ := value_head hp htextual.1
          exact ihValue _ _ _ _ _ _ hp htextual.1 (le_trans (le_max_left _ _) hdepth)
            (rejoined_skip hcolon (head_plain hleft (token_plain hd)))
        split at h
        · rename_i left hleft
          obtain ⟨q,hq,heq⟩ := Option.map_eq_some_iff.mp h
          cases heq
          apply readAlike_bind (hvalue _ rfl)
          intro rest₂ hrest₂
          obtain ⟨left',hleft',hcomma⟩ := rejoined_token hrest₂ hleft (by decide)
          rw [entries,List.map_cons,fieldsTextual,Bool.and_eq_true] at htextual
          rw [entries,List.map_cons,fieldsNesting] at hdepth
          obtain ⟨rest₃,hrest₃⟩ := fields_head hq
          have hskip := rejoined_skip hcomma (head_plain hrest₃ (by decide))
          simp only [hleft']
          exact readAlike_map (ihFields _ _ _ _ _ _ hq htextual.2
            (le_trans (le_max_right _ _) hdepth) hskip) (List.cons (key.1,p.1))
        · rename_i left hleft
          cases h
          apply readAlike_bind (hvalue _ rfl)
          intro rest₂ hrest₂
          obtain ⟨left',hleft',hclose⟩ := rejoined_token hrest₂ hleft (by decide)
          simp only [hleft']
          exact Or.inl ⟨left',rfl,hclose⟩
        · cases h
      · cases h

theorem loads_rejoined {frames : ℕ} {value : Value} (h : Spells value a)
    (htextual : textual value = true) (hframes : nesting value ≤ frames) (hab : Rejoined a b) :
    loads frames b = .ok value ∨ loads frames b = .error .malformed := by
  have hread := readValue_spells value h ends_nil (Nat.lt_succ_self _)
  rw [List.append_nil] at hread
  obtain ⟨c,tail,rfl,hc⟩ := value_head hread htextual
  obtain ⟨b,rfl,hb⟩ := rejoined_cons hab (token_plain hc)
  have hmark : (c::b).head? ≠ some (Char.ofNat 0xfeff) := by
    rw [List.head?_cons]
    rcases hc with rfl | rfl | rfl <;> decide
  have htoken : isBlank c = false := by
    rcases hc with rfl | rfl | rfl <;> decide
  have hscan := (scan_rejoined ((c::tail).length+1)).1 frames (2*(c::b).length+2) _ _ _ _ hread
    htextual hframes hab
  rw [loads,loadsWith,if_neg hmark,token_skip htoken]
  rcases hscan with ⟨rest,hrest,hrejoined⟩ | hnone
  · rw [hrest]
    exact Or.inl (if_pos (rejoined_blank hrejoined rfl))
  · rw [hnone]
    exact Or.inr rfl

end LawyerAgent.RejoinedLines
