import Mathlib.Data.List.Infix
import Mathlib.Data.List.Count

/-!
# LIKE patterns

A percent sign stands for any text and a low line for any character; the
character after a backslash stands for itself. A text between two percent signs
finds the texts that contain it only where none of the three occurs in it.
-/

set_option autoImplicit false

namespace Patterns

inductive Part where
  | any
  | one
  | char (c : Char)

def part (c : Char) : Part := if c = '%' then .any else if c = '_' then .one else .char c

/-- The parts of a pattern; a backslash that ends it stands for itself. -/
def parts : List Char → List Part
  | [] => []
  | [c] => [part c]
  | c::d::rest => if c = '\\' then .char d::parts rest else part c::parts (d::rest)

def matchParts : List Part → List Char → Bool
  | [],text => text.isEmpty
  | .any::rest,text => text.tails.any (matchParts rest)
  | .one::_,[] => false
  | .one::rest,_::text => matchParts rest text
  | .char _::_,[] => false
  | .char c::rest,d::text => c == d && matchParts rest text

def like (pattern text : List Char) : Bool := matchParts (parts pattern) text

def Plain (text : List Char) : Prop := ∀ c ∈ text, c ≠ '%' ∧ c ≠ '_' ∧ c ≠ '\\'

instance (text : List Char) : Decidable (Plain text) :=
  List.decidableBAll _ text

variable {rest : List Part} {text : List Char}

theorem match_any :
    matchParts (.any::rest) text = true ↔
      ∃ before after, text = before++after ∧ matchParts rest after = true := by
  rw [matchParts,List.any_eq_true]
  constructor
  · intro h
    obtain ⟨after,htail,hmatch⟩ := h
    obtain ⟨before,hsplit⟩ := (List.mem_tails _ _).mp htail
    exact ⟨before,after,hsplit.symm,hmatch⟩
  · intro h
    obtain ⟨before,after,hsplit,hmatch⟩ := h
    exact ⟨after,(List.mem_tails _ _).mpr ⟨before,hsplit.symm⟩,hmatch⟩

theorem match_end (text : List Char) : matchParts [.any] text = true :=
  match_any.mpr ⟨text,[],(List.append_nil text).symm,rfl⟩

theorem match_chars {chars : List Char} :
    matchParts (chars.map .char++rest) text = true ↔
      ∃ after, text = chars++after ∧ matchParts rest after = true := by
  induction chars generalizing text with
  | nil => simp
  | cons c chars ih =>
    cases text with
    | nil => simp [matchParts]
    | cons d text =>
      rw [List.map_cons,List.cons_append,matchParts,Bool.and_eq_true,beq_iff_eq,ih]
      constructor
      · intro h
        obtain ⟨rfl,after,rfl,hmatch⟩ := h
        exact ⟨after,rfl,hmatch⟩
      · intro h
        obtain ⟨after,hsplit,hmatch⟩ := h
        obtain ⟨hc,htext⟩ := List.cons.inj hsplit
        exact ⟨hc.symm,after,htext,hmatch⟩

theorem parts_plain (h : Plain text) :
    parts (text++['%']) = text.map .char++[.any] := by
  induction text with
  | nil => rfl
  | cons c text ih =>
    obtain ⟨⟨hpercent,hline,hslash⟩,hrest⟩ := List.forall_mem_cons.mp h
    have hpart : part c = .char c := by rw [part,if_neg hpercent,if_neg hline]
    have ih := ih hrest
    cases text with
    | nil =>
      change (if c = '\\' then _ else _) = _
      rw [if_neg hslash,hpart]
      rfl
    | cons d text =>
      change (if c = '\\' then _ else _) = _
      rw [if_neg hslash,hpart]
      change Part.char c::parts ((d::text)++['%']) = _
      rw [ih]
      rfl

theorem parts_percent (text : List Char) : parts ('%'::(text++['%'])) =
    .any::parts (text++['%']) := by
  cases text with
  | nil => rfl
  | cons c text => rfl

theorem like_plain (h : Plain text) (title : List Char) :
    like ('%'::(text++['%'])) title = true ↔ text <:+: title := by
  rw [like,parts_percent,parts_plain h,match_any]
  constructor
  · intro hmatch
    obtain ⟨before,after,rfl,hafter⟩ := hmatch
    obtain ⟨rest,rfl,-⟩ := match_chars.mp hafter
    exact ⟨before,rest,List.append_assoc _ _ _⟩
  · intro hfound
    obtain ⟨before,rest,hsplit⟩ := hfound
    exact ⟨before,text++rest,by rw [← hsplit,List.append_assoc],
      match_chars.mpr ⟨rest,rfl,match_end rest⟩⟩

def sampleEnd (c : Char) : List Char :=
  if c = '%' then [] else if c = '_' then ['x'] else if c = '\\' then ['%'] else [c]

/-- A text found by a pattern, in which no wildcard of it is left. -/
def sample : List Char → List Char
  | [] => []
  | [c] => sampleEnd c
  | c::d::rest =>
    if c = '\\' then d::sample rest
    else if c = '%' then sample (d::rest)
    else (if c = '_' then 'x' else c)::sample (d::rest)

theorem parts_escaped (c : Char) (rest : List Char) :
    parts ('\\'::c::rest) = .char c::parts rest := by rw [parts,if_pos rfl]

theorem parts_part {c : Char} (h : c ≠ '\\') {rest : List Char} (hrest : rest ≠ []) :
    parts (c::rest) = part c::parts rest := by
  cases rest with
  | nil => exact absurd rfl hrest
  | cons d rest => rw [parts,if_neg h]

theorem match_sampled {c : Char} {title : List Char} (hpercent : c ≠ '%')
    (h : matchParts rest title = true) :
    matchParts (part c::rest) ((if c = '_' then 'x' else c)::title) = true := by
  rw [part,if_neg hpercent]
  by_cases hline : c = '_'
  · rw [if_pos hline,if_pos hline]
    exact h
  · rw [if_neg hline,if_neg hline,matchParts,beq_self_eq_true]
    exact h

theorem match_percent {title : List Char} (h : matchParts rest title = true) :
    matchParts (part '%'::rest) title = true :=
  match_any.mpr ⟨[],title,rfl,h⟩

theorem match_sample (text : List Char) :
    matchParts (parts (text++['%'])) (sample text) = true := by
  induction text using sample.induct with
  | case1 => rfl
  | case2 c =>
    by_cases hslash : c = '\\'
    · subst hslash
      rfl
    have hparts : parts ([c]++['%']) = part c::parts ['%'] := parts_part hslash (by simp)
    rw [hparts,sample,sampleEnd]
    by_cases hpercent : c = '%'
    · rw [if_pos hpercent,hpercent]
      exact match_percent rfl
    · rw [if_neg hpercent,if_neg hslash]
      have hsampled := match_sampled hpercent (match_end [])
      by_cases hline : c = '_'
      · rw [if_pos hline] at hsampled ⊢
        exact hsampled
      · rw [if_neg hline] at hsampled ⊢
        exact hsampled
  | case3 d rest ih =>
    have hparts : parts ('\\'::d::rest++['%']) = .char d::parts (rest++['%']) :=
      parts_escaped d _
    rw [hparts,sample,if_pos rfl,matchParts,beq_self_eq_true,ih]
    rfl
  | case4 d rest hslash ih =>
    have hparts : parts ('%'::d::rest++['%']) = part '%'::parts (d::rest++['%']) :=
      parts_part hslash (by simp)
    rw [hparts,sample,if_neg hslash,if_pos rfl]
    exact match_percent ih
  | case5 c d rest hslash hpercent ih =>
    have hparts : parts (c::d::rest++['%']) = part c::parts (d::rest++['%']) :=
      parts_part hslash (by simp)
    rw [hparts,sample,if_neg hslash,if_neg hpercent]
    exact match_sampled hpercent ih

theorem slashes_sample (text : List Char) :
    (sample text).count '\\' ≤ text.count '\\' ∧
      ('\\' ∈ text → (sample text).count '\\' < text.count '\\') := by
  induction text using sample.induct with
  | case1 => simp [sample]
  | case2 c =>
    by_cases hslash : c = '\\'
    · subst hslash
      decide
    · have hnone : (sample [c]).count '\\' = 0 := by
        rw [sample,sampleEnd]
        split_ifs with hpercent hline
        · rfl
        · rfl
        · simp [hslash]
      rw [hnone]
      exact ⟨Nat.zero_le _,fun hmem => absurd (List.mem_singleton.mp hmem).symm hslash⟩
  | case3 d rest ih =>
    rw [sample,if_pos rfl,List.count_cons,List.count_cons,List.count_cons]
    have hself : (if ('\\' == '\\') = true then 1 else 0) = 1 := rfl
    rw [hself]
    exact ⟨by omega,fun _ => by omega⟩
  | case4 d rest hslash ih =>
    have hcount : ('%'::d::rest).count '\\' = (d::rest).count '\\' := by
      rw [List.count_cons_of_ne (by decide)]
    rw [sample,if_neg hslash,if_pos rfl,hcount]
    refine ⟨ih.1,?_⟩
    intro hmem
    exact ih.2 ((List.mem_cons.mp hmem).resolve_left (by decide))
  | case5 c d rest hslash hpercent ih =>
    have hcount : (c::d::rest).count '\\' = (d::rest).count '\\' := by
      rw [List.count_cons_of_ne hslash]
    have hne : (if c = '_' then 'x' else c) ≠ '\\' := by
      split_ifs
      · decide
      · exact hslash
    rw [sample,if_neg hslash,if_neg hpercent,hcount,List.count_cons_of_ne hne]
    refine ⟨ih.1,?_⟩
    intro hmem
    exact ih.2 ((List.mem_cons.mp hmem).resolve_left fun h => hslash h.symm)

theorem wildcards_sample (h : '\\' ∉ text) :
    '%' ∉ sample text ∧ '_' ∉ sample text := by
  induction text using sample.induct with
  | case1 => simp [sample]
  | case2 c =>
    have hslash : c ≠ '\\' := fun hc => h (hc ▸ List.mem_singleton_self c)
    rw [sample,sampleEnd]
    split_ifs with hpercent hline
    · simp
    · decide
    · simp [Ne.symm hpercent,Ne.symm hline]
  | case3 d rest ih => exact absurd List.mem_cons_self h
  | case4 d rest hslash ih =>
    rw [sample,if_neg hslash,if_pos rfl]
    exact ih fun hmem => h (List.mem_cons_of_mem _ hmem)
  | case5 c d rest hslash hpercent ih =>
    obtain ⟨hleft,hright⟩ := ih fun hmem => h (List.mem_cons_of_mem _ hmem)
    rw [sample,if_neg hslash,if_neg hpercent]
    split_ifs with hline
    · simp [hleft,hright]
    · simp [hleft,hright,Ne.symm hpercent,Ne.symm hline]

/-- A text that is not plain finds a title that does not contain it. -/
theorem like_other (h : ¬ Plain text) :
    like ('%'::(text++['%'])) ('x'::sample text) = true ∧ ¬ text <:+: 'x'::sample text := by
  constructor
  · rw [like,parts_percent]
    exact match_any.mpr ⟨['x'],sample text,rfl,match_sample text⟩
  · intro hfound
    by_cases hslash : '\\' ∈ text
    · have hcount := hfound.sublist.count_le '\\'
      rw [List.count_cons_of_ne (by decide)] at hcount
      have hless := (slashes_sample text).2 hslash
      omega
    · apply h
      obtain ⟨hpercent,hline⟩ := wildcards_sample hslash
      intro c hc
      have hmem := hfound.subset hc
      refine ⟨?_,?_,?_⟩
      · rintro rfl
        exact hpercent ((List.mem_cons.mp hmem).resolve_left (by decide))
      · rintro rfl
        exact hline ((List.mem_cons.mp hmem).resolve_left (by decide))
      · rintro rfl
        exact hslash hc

end Patterns
