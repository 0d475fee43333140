import LawyerAgent.LegalArticleHeading

/-!
# Chinese counting

Word counts articles in Chinese numerals. What is rendered for a number is read
back as this number.
-/

set_option autoImplicit false

namespace LawyerAgent.ChineseCounting
open LegalArticleHeading
open PythonText (isSpace)

inductive NumberingFailure where
  | digitLimit
  | unsupported
deriving DecidableEq

def countingUnits : List (ℕ × Char) := [(1000,'千'),(100,'百'),(10,'十')]

/-- The pieces so far, what remains and whether a zero is pending. -/
structure Counting where
  pieces : Text
  remaining : ℕ
  pendingZero : Bool

def digitText (digit : ℕ) : Text := (chineseDigits[digit]?).toList

def zeroed (s : Counting) : Text := if s.pendingZero then s.pieces++['零'] else s.pieces

def countingStep (s : Counting) (unit : ℕ × Char) : Counting :=
  let digit := s.remaining/unit.1
  let remaining := s.remaining%unit.1
  if digit ≠ 0 then
    let pieces :=
      if unit.1 = 10 ∧ digit = 1 ∧ zeroed s = [] then zeroed s else zeroed s++digitText digit
    ⟨pieces++[unit.2],remaining,false⟩
  else if s.pieces ≠ [] ∧ remaining ≠ 0 then ⟨s.pieces,remaining,true⟩
  else ⟨s.pieces,remaining,s.pendingZero⟩

def countingEnd (s : Counting) : Text :=
  if s.remaining ≠ 0 then zeroed s++digitText s.remaining else s.pieces

def chineseCounting (value : ℕ) : Except NumberingFailure Text :=
  if value = 0 ∨ 9999 < value then .error .unsupported
  else .ok (countingEnd (countingUnits.foldl countingStep ⟨[],value,false⟩))

def Counting.canonical (s : Counting) : Canonical := ⟨s.pieces,s.remaining,s.pendingZero⟩

theorem canonicalStep_counting (s : Counting) (unit : ℕ × Char) :
    canonicalStep s.canonical (unit.1,[unit.2]) = (countingStep s unit).canonical := by
  obtain ⟨pieces,remaining,pendingZero⟩ := s
  change canonicalStep ⟨pieces,remaining,pendingZero⟩ (unit.1,[unit.2]) = _
  unfold canonicalStep countingStep
  dsimp only
  by_cases hdigit : remaining/unit.1 ≠ 0
  · rw [if_pos hdigit,if_pos hdigit]
    rfl
  · rw [if_neg hdigit,if_neg hdigit]
    by_cases hpending : pieces ≠ [] ∧ remaining%unit.1 ≠ 0
    · rw [if_pos hpending,if_pos hpending]
      rfl
    · rw [if_neg hpending,if_neg hpending]
      rfl

theorem canonical_counting (value : ℕ) : canonical value =
    countingEnd (countingUnits.foldl countingStep ⟨[],value,false⟩) := by
  have hlast : ∀ s : Counting, (canonicalStep s.canonical (1,[])).text = countingEnd s := by
    intro s
    unfold canonicalStep countingEnd
    dsimp only [Counting.canonical,zeroed,digitText]
    rw [Nat.div_one,Nat.mod_one]
    split_ifs <;> simp_all
  have hstart : (⟨[],value,false⟩ : Canonical) = Counting.canonical ⟨[],value,false⟩ := rfl
  unfold canonical countingUnits
  simp only [List.foldl_cons,List.foldl_nil]
  rw [hstart,canonicalStep_counting _ (1000,'千'),canonicalStep_counting _ (100,'百'),
    canonicalStep_counting _ (10,'十'),hlast]

theorem read_zero (rest : Text) (total digit : ℕ) :
    readNumeral ('零'::rest) total digit = readNumeral rest total 0 := by
  rw [readNumeral,if_pos (by decide)]
  rfl

theorem read_digit {digit : ℕ} (h : digit < 10) (rest : Text) (total before : ℕ) :
    readNumeral (digitText digit++rest) total before = readNumeral rest total digit := by
  have hall : ∀ d < 10, ∃ c, digitText d = [c] ∧ chineseDigits.contains c = true ∧
      chineseDigits.idxOf c = d := by
    intro d hd
    refine ⟨(chineseDigits[d]?).getD '零',?_⟩
    revert d
    decide
  obtain ⟨c,htext,hcontains,hindex⟩ := hall digit h
  rw [htext,List.singleton_append,readNumeral,if_pos hcontains,hindex]

theorem read_unit {unit : ℕ × Char} (h : unit ∈ countingUnits) (rest : Text) (total digit : ℕ) :
    readNumeral (unit.2::rest) total digit =
      readNumeral rest (total+(if digit ≠ 0 then digit else 1)*unit.1) 0 := by
  have hunit : chineseDigits.contains unit.2 = false ∧ unitOf unit.2 = some unit.1 := by
    revert unit
    decide
  rw [readNumeral,hunit.1,hunit.2]
  rfl

/-- What has been rendered is read as `done`. -/
def Reads (s : Counting) (done : ℕ) : Prop :=
  ∀ rest, readNumeral (s.pieces++rest) 0 0 = readNumeral rest done 0

theorem Reads.zeroed {s : Counting} {done : ℕ} (h : Reads s done) (rest : Text) :
    readNumeral (zeroed s++rest) 0 0 = readNumeral rest done 0 := by
  unfold ChineseCounting.zeroed
  split
  · rw [List.append_assoc,h,List.singleton_append,read_zero]
  · exact h rest

theorem Reads.step {s : Counting} {done : ℕ} (h : Reads s done) {unit : ℕ × Char}
    (hunit : unit ∈ countingUnits) (hdigit : s.remaining/unit.1 < 10) :
    Reads (countingStep s unit) (done+s.remaining/unit.1*unit.1) := by
  intro rest
  unfold countingStep
  dsimp only
  by_cases hzero : s.remaining/unit.1 = 0
  · rw [hzero,Nat.zero_mul,Nat.add_zero,if_neg (not_not.mpr rfl)]
    split <;> exact h rest
  · rw [if_pos hzero,List.append_assoc,List.singleton_append]
    split
    · next hplain =>
      rw [h.zeroed,read_unit hunit,hplain.2.1]
      rfl
    · rw [List.append_assoc,h.zeroed,read_digit hdigit,read_unit hunit,if_pos hzero]

theorem Reads.ends {s : Counting} {done : ℕ} (h : Reads s done) (hdigit : s.remaining < 10) :
    readNumeral (countingEnd s) 0 0 = some (done+s.remaining) := by
  unfold countingEnd
  by_cases hzero : s.remaining = 0
  · have hread := h []
    rw [List.append_nil] at hread
    rw [hzero,if_neg (not_not.mpr rfl),hread]
    rfl
  · have hread := h.zeroed (digitText s.remaining++[])
    rw [List.append_nil] at hread
    have hlast := read_digit hdigit [] done 0
    rw [List.append_nil] at hlast
    rw [if_pos hzero,hread,hlast]
    rfl

theorem countingStep_remaining (s : Counting) (unit : ℕ × Char) :
    (countingStep s unit).remaining = s.remaining%unit.1 := by
  unfold countingStep
  dsimp only
  split_ifs <;> rfl

theorem read_counting {value : ℕ} (h : value ≤ 9999) :
    readNumeral (countingEnd (countingUnits.foldl countingStep ⟨[],value,false⟩)) 0 0 =
      some value := by
  have hstart : Reads ⟨[],value,false⟩ 0 := fun _ => rfl
  have hthousand := @Reads.step _ _ hstart (1000,'千') (by decide) (by dsimp only; omega)
  have hhundred := @Reads.step _ _ hthousand (100,'百') (by decide) (by
    rw [countingStep_remaining]
    dsimp only
    omega)
  have hten := @Reads.step _ _ hhundred (10,'十') (by decide) (by
    rw [countingStep_remaining,countingStep_remaining]
    dsimp only
    omega)
  have hread := hten.ends (by
    rw [countingStep_remaining]
    dsimp only
    omega)
  simp only [countingStep_remaining] at hread
  unfold countingUnits
  simp only [List.foldl_cons,List.foldl_nil]
  rw [hread,Option.some_inj]
  omega

def countingChars : Text := chineseDigits++['十','百','千']

theorem digitText_chars (digit : ℕ) : ∀ c ∈ digitText digit, c ∈ countingChars := by
  intro c hc
  exact List.mem_append_left _ (List.mem_of_getElem? (Option.mem_toList.mp hc))

theorem zeroed_chars {s : Counting} (h : ∀ c ∈ s.pieces, c ∈ countingChars) :
    ∀ c ∈ zeroed s, c ∈ countingChars := by
  unfold zeroed
  split
  · intro c hc
    rcases List.mem_append.mp hc with hold | hzero
    · exact h c hold
    · rw [List.mem_singleton.mp hzero]
      decide
  · exact h

theorem countingStep_chars {s : Counting} {unit : ℕ × Char} (hunit : unit ∈ countingUnits)
    (h : ∀ c ∈ s.pieces, c ∈ countingChars) :
    ∀ c ∈ (countingStep s unit).pieces, c ∈ countingChars := by
  have hlabel : unit.2 ∈ countingChars := by
    revert unit
    decide
  unfold countingStep
  dsimp only
  split
  · intro c hc
    rcases List.mem_append.mp hc with hold | hnew
    · split at hold
      · exact zeroed_chars h c hold
      · rcases List.mem_append.mp hold with hpieces | hdigit
        · exact zeroed_chars h c hpieces
        · exact digitText_chars _ c hdigit
    · rw [List.mem_singleton.mp hnew]
      exact hlabel
  · split <;> exact h

theorem counting_chars (value : ℕ) :
    ∀ c ∈ countingEnd (countingUnits.foldl countingStep ⟨[],value,false⟩), c ∈ countingChars := by
  have hfold : ∀ units : List (ℕ × Char), (∀ unit ∈ units, unit ∈ countingUnits) →
      ∀ s : Counting, (∀ c ∈ s.pieces, c ∈ countingChars) →
        ∀ c ∈ (units.foldl countingStep s).pieces, c ∈ countingChars := by
    intro units hunits
    induction units with
    | nil => exact fun s hs => hs
    | cons unit units ih =>
      intro s hs
      exact ih (fun u hu => hunits u (List.mem_cons_of_mem _ hu)) _
        (countingStep_chars (hunits unit List.mem_cons_self) hs)
  have hpieces := hfold countingUnits (fun _ h => h) ⟨[],value,false⟩ (by simp)
  unfold countingEnd
  split
  · intro c hc
    rcases List.mem_append.mp hc with hold | hdigit
    · exact zeroed_chars hpieces c hold
    · exact digitText_chars _ c hdigit
  · exact hpieces

theorem countingChars_plain : ∀ c ∈ countingChars,
    toArabic c = c ∧ isAsciiDigit c = false ∧ isNumeral c = true ∧ isSpace c = false := by
  have hall : (countingChars.all fun c => decide (toArabic c = c ∧ isAsciiDigit c = false ∧
      isNumeral c = true ∧ isSpace c = false)) = true := by decide
  exact fun c hc => of_decide_eq_true (List.all_eq_true.mp hall c hc)

theorem cnNumber_counting {value : ℕ} {numeral : Text} (h : chineseCounting value = .ok numeral) :
    cnNumber numeral = some value ∧ numeral ≠ [] ∧ ∀ c ∈ numeral, c ∈ countingChars := by
  unfold chineseCounting at h
  split_ifs at h with hrange
  cases h
  have hread := @read_counting value (by omega)
  have hchars := counting_chars value
  have hcanonical := canonical_counting value
  generalize countingEnd (countingUnits.foldl countingStep ⟨[],value,false⟩) = numeral at *
  have hne : numeral ≠ [] := by
    rintro rfl
    cases hread
    omega
  have hnormal : numeral.map toArabic = numeral := by
    conv_rhs => rw [← List.map_id numeral]
    exact List.map_congr_left fun c hc => (countingChars_plain c (hchars c hc)).1
  have hdigits : ¬(numeral ≠ [] ∧ numeral.all isAsciiDigit = true) := by
    rintro ⟨-,hall⟩
    obtain ⟨c,rest,rfl⟩ := List.exists_cons_of_ne_nil hne
    have hdigit := List.all_eq_true.mp hall c List.mem_cons_self
    rw [(countingChars_plain c (hchars c List.mem_cons_self)).2.1] at hdigit
    cases hdigit
  refine ⟨?_,hne,hchars⟩
  unfold cnNumber
  dsimp only
  rw [hnormal,if_neg hdigits,hread]
  dsimp only
  rw [if_neg (not_not.mpr (by omega)),if_pos (Or.inl hcanonical)]

end LawyerAgent.ChineseCounting
