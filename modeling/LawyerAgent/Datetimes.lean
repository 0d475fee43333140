import LawyerAgent.Envelope
import Mathlib.Tactic.Common

/-!
# Datetimes and their canonical text

A datetime lies between the first instant of the year 1 and the last
microsecond of the year 9999. On that range the canonical text determines the
instant, since the civil date determines the day and every field has a fixed
width.
-/

set_option autoImplicit false

namespace LawyerAgent.Datetimes
open Common Envelope

def digitValue (c : Char) : ℕ := if c.toNat < 58 then c.toNat-48 else c.toNat-87

theorem digitValue_digit : ∀ n < 16, digitValue (digit n) = n := by decide

theorem digits_length (base width n : ℕ) : (digits base width n).length = width := by
  induction width generalizing n with
  | zero => rfl
  | succ width ih => simp [digits,ih]

theorem digits_inj {base : ℕ} (hbase : base ≤ 16) (hpos : 0 < base) :
    ∀ {width n m : ℕ}, n < base^width → m < base^width →
      digits base width n = digits base width m → n = m := by
  intro width
  induction width with
  | zero =>
    intro n m hn hm _
    simp only [pow_zero] at hn hm
    omega
  | succ width ih =>
    intro n m hn hm h
    obtain ⟨hhigh,hlow⟩ := List.append_inj h (by simp only [digits_length])
    have hquot : n/base = m/base := by
      apply ih _ _ hhigh
      · exact Nat.div_lt_of_lt_mul (by rw [mul_comm,← pow_succ]; exact hn)
      · exact Nat.div_lt_of_lt_mul (by rw [mul_comm,← pow_succ]; exact hm)
    have hrem : n%base = m%base := by
      have hval := congrArg digitValue (List.cons.inj hlow).1
      rwa [digitValue_digit _ ((Nat.mod_lt n hpos).trans_le hbase),
        digitValue_digit _ ((Nat.mod_lt m hpos).trans_le hbase)] at hval
    rw [← Nat.div_add_mod n base,← Nat.div_add_mod m base,hquot,hrem]

theorem digit_ascii : ∀ n < 16, (digit n).toNat < 128 := by decide

theorem digits_mem {base : ℕ} (hpos : 0 < base) {width n : ℕ} {c : Char}
    (hc : c ∈ digits base width n) : ∃ k < base, c = digit k := by
  induction width generalizing n with
  | zero => cases hc
  | succ width ih =>
    simp only [digits,List.mem_append,List.mem_singleton] at hc
    rcases hc with hc | rfl
    · exact ih hc
    · exact ⟨n%base,Nat.mod_lt n hpos,rfl⟩

theorem digits_ascii {base : ℕ} (hbase : base ≤ 16) (hpos : 0 < base) (width n : ℕ) :
    ∀ c ∈ digits base width n, c.toNat < 128 := by
  intro c hc
  obtain ⟨k,hk,rfl⟩ := digits_mem hpos hc
  exact digit_ascii k (hk.trans_le hbase)

theorem dayOfYear_bounds {doe yoe : ℤ} (h : 0 ≤ doe) (h' : doe ≤ 146096)
    (hy : yoe = (doe-doe/1460+doe/36524-doe/146096)/365) :
    0 ≤ doe-(365*yoe+yoe/4-yoe/100) ∧ doe-(365*yoe+yoe/4-yoe/100) ≤ 365 := by
  have hcentury : doe/36524-doe/146096 = doe/36524 ∧ doe/36524 ≤ 3 ∨
      doe = 146096 := by omega
  rcases hcentury with ⟨hd,hle⟩ | rfl
  · rw [add_sub_assoc,hd] at hy
    have hcases : doe/36524 = 0 ∨ doe/36524 = 1 ∨ doe/36524 = 2 ∨ doe/36524 = 3 := by omega
    have hk : yoe-4*(doe/1460) = -1 ∨ yoe-4*(doe/1460) = 0 ∨ yoe-4*(doe/1460) = 1 ∨
        yoe-4*(doe/1460) = 2 ∨ yoe-4*(doe/1460) = 3 := by
      rcases hcases with hc | hc | hc | hc <;> rw [hc] at hy <;> omega
    rcases hcases with hc | hc | hc | hc <;> rw [hc] at hy <;>
      rcases hk with hk | hk | hk | hk | hk <;> omega
  · subst hy
    decide

def civilDay (year month day : ℤ) : ℤ :=
  let y := if month ≤ 2 then year-1 else year
  let mp := if month ≤ 2 then month+9 else month-3
  let yoe := y%400
  y/400*146097+(yoe*365+yoe/4-yoe/100)+((153*mp+2)/5+day-1)-719468

theorem civilDate_spec (day : ℤ) : ∃ era yoe doy mp : ℤ,
    0 ≤ yoe ∧ yoe ≤ 399 ∧ 0 ≤ doy ∧ doy ≤ 365 ∧ 0 ≤ mp ∧ mp ≤ 11 ∧
    mp = (5*doy+2)/153 ∧ day+719468 = era*146097+(yoe*365+yoe/4-yoe/100)+doy ∧
    civilDate day =
      (yoe+era*400+(if (if mp < 10 then mp+3 else mp-9) ≤ 2 then 1 else 0),
        if mp < 10 then mp+3 else mp-9,doy-(153*mp+2)/5+1) := by
  have hdoe : 0 ≤ (day+719468)%146097 := Int.emod_nonneg _ (by decide)
  have hdoe' : (day+719468)%146097 ≤ 146096 := by omega
  have hsplit := Int.mul_ediv_add_emod (day+719468) 146097
  generalize hera : (day+719468)/146097 = era at hsplit
  generalize hz : (day+719468)%146097 = doe at hdoe hdoe' hsplit
  generalize hyoe : (doe-doe/1460+doe/36524-doe/146096)/365 = yoe
  have hbounds := dayOfYear_bounds hdoe hdoe' hyoe.symm
  refine ⟨era,yoe,doe-(365*yoe+yoe/4-yoe/100),(5*(doe-(365*yoe+yoe/4-yoe/100))+2)/153,
    by omega,by omega,hbounds.1,hbounds.2,by omega,by omega,rfl,by omega,?_⟩
  simp only [civilDate,hera,hz,hyoe]

theorem civilDay_civilDate (day : ℤ) :
    civilDay (civilDate day).1 (civilDate day).2.1 (civilDate day).2.2 = day := by
  obtain ⟨era,yoe,doy,mp,hy,hy',hd,hd',hm,hm',hmp,hday,hdate⟩ := civilDate_spec day
  have hquot : (yoe+era*400)/400 = era := by omega
  have hrem : (yoe+era*400)%400 = yoe := by omega
  rw [hdate]
  by_cases hten : mp < 10
  · have hle : ¬mp+3 ≤ 2 := by omega
    simp only [civilDay,if_pos hten,if_neg hle,add_zero,add_sub_cancel_right,hquot,hrem]
    omega
  · have hle : mp-9 ≤ 2 := by omega
    simp only [civilDay,if_neg hten,if_pos hle,add_sub_cancel_right,sub_add_cancel,hquot,hrem]
    omega

theorem civilDate_month (day : ℤ) :
    1 ≤ (civilDate day).2.1 ∧ (civilDate day).2.1 ≤ 12 ∧
    1 ≤ (civilDate day).2.2 ∧ (civilDate day).2.2 ≤ 31 := by
  obtain ⟨era,yoe,doy,mp,-,-,hd,hd',hm,hm',hmp,-,hdate⟩ := civilDate_spec day
  rw [hdate]
  by_cases hten : mp < 10
  · simp only [if_pos hten]
    omega
  · simp only [if_neg hten]
    omega

theorem civilDate_year {day : ℤ} (h : -719162 ≤ day) (h' : day ≤ 2932896) :
    1 ≤ (civilDate day).1 ∧ (civilDate day).1 ≤ 9999 := by
  obtain ⟨era,yoe,doy,mp,hy,hy',hd,hd',hm,hm',hmp,hday,hdate⟩ := civilDate_spec day
  rw [hdate]
  by_cases hten : mp < 10
  · have hle : ¬mp+3 ≤ 2 := by omega
    simp only [if_pos hten,if_neg hle]
    omega
  · have hle : mp-9 ≤ 2 := by omega
    simp only [if_neg hten,if_pos hle]
    omega

def minDatetime : Time := seconds (86400*(-719162))

def maxDatetime : Time := seconds (86400*2932897)

structure Datetime where
  instant : Time
  first : minDatetime ≤ instant
  last : instant < maxDatetime
deriving DecidableEq

theorem field_inj {width : ℕ} {x y : ℤ} {rest rest' : List Char}
    (h : digits 10 width x.toNat++rest = digits 10 width y.toNat++rest')
    (hx : 0 ≤ x) (hx' : x < 10^width) (hy : 0 ≤ y) (hy' : y < 10^width) :
    x = y ∧ rest = rest' := by
  obtain ⟨hdigits,hrest⟩ := List.append_inj h (by simp only [digits_length])
  have hcast : ∀ z : ℤ, 0 ≤ z → z < 10^width → z.toNat < 10^width := by
    intro z hz hz'
    rw [Int.toNat_lt hz]
    exact_mod_cast hz'
  have heq := digits_inj (by decide) (by decide) (hcast x hx hx') (hcast y hy hy') hdigits
  exact ⟨by omega,hrest⟩

theorem fraction_inj {x y : ℤ} (hx : 0 ≤ x) (hx' : x < 1000000) (hy : 0 ≤ y)
    (hy' : y < 1000000)
    (h : (if x = 0 then [] else '.'::digits 10 6 x.toNat)++['Z'] =
      (if y = 0 then [] else '.'::digits 10 6 y.toNat)++['Z']) : x = y := by
  by_cases hzero : x = 0
  · by_cases hzero' : y = 0
    · rw [hzero,hzero']
    · rw [if_pos hzero,if_neg hzero'] at h
      simp at h
  · by_cases hzero' : y = 0
    · rw [if_neg hzero,if_pos hzero'] at h
      simp at h
    · rw [if_neg hzero,if_neg hzero'] at h
      simp only [List.cons_append,List.cons.injEq,true_and] at h
      exact (field_inj h hx (by omega) hy (by omega)).1

theorem clock_split (z : ℤ) : z = 3600*(z/3600)+60*(z/60%60)+z%60 := by
  omega

theorem day_range {a : ℤ} (h : minDatetime ≤ a) (h' : a < maxDatetime) :
    -719162 ≤ a/1000000/86400 ∧ a/1000000/86400 ≤ 2932896 := by
  have hfirst : (-62135596800000000 : ℤ) ≤ a := by simpa [minDatetime,seconds] using h
  have hlast : a < (253402300800000000 : ℤ) := by simpa [maxDatetime,seconds] using h'
  omega

theorem canonicalText_inj {a b : ℤ} (ha : minDatetime ≤ a) (ha' : a < maxDatetime)
    (hb : minDatetime ≤ b) (hb' : b < maxDatetime)
    (h : canonicalDatetime a = canonicalDatetime b) : a = b := by
  have hra := day_range ha ha'
  have hrb := day_range hb hb'
  have hya := civilDate_year hra.1 hra.2
  have hyb := civilDate_year hrb.1 hrb.2
  have hma := civilDate_month (a/1000000/86400)
  have hmb := civilDate_month (b/1000000/86400)
  dsimp only [canonicalDatetime,Time] at h
  simp only [List.append_assoc,List.cons_append] at h
  obtain ⟨hyear,h⟩ := field_inj h (by omega) (by omega) (by omega) (by omega)
  obtain ⟨hmonth,h⟩ := field_inj (List.cons.inj h).2 (by omega) (by omega) (by omega) (by omega)
  obtain ⟨hday,h⟩ := field_inj (List.cons.inj h).2 (by omega) (by omega) (by omega) (by omega)
  obtain ⟨hhour,h⟩ := field_inj (List.cons.inj h).2 (by omega) (by omega) (by omega) (by omega)
  obtain ⟨hminute,h⟩ := field_inj (List.cons.inj h).2 (by omega) (by omega) (by omega) (by omega)
  obtain ⟨hsecond,h⟩ := field_inj (List.cons.inj h).2 (by omega) (by omega) (by omega) (by omega)
  have hmicro := fraction_inj (by omega) (by omega) (by omega) (by omega) h
  have hdays : a/1000000/86400 = b/1000000/86400 := by
    rw [← civilDay_civilDate (a/1000000/86400),hyear,hmonth,hday,civilDay_civilDate]
  have hclock : a/1000000%86400 = b/1000000%86400 := by
    rw [clock_split (a/1000000%86400),hhour,hminute,hsecond]
    exact (clock_split (b/1000000%86400)).symm
  omega

theorem canonicalDatetime_inj {s t : Datetime}
    (h : canonicalDatetime s.instant = canonicalDatetime t.instant) : s = t := by
  obtain ⟨a,ha,ha'⟩ := s
  obtain ⟨b,hb,hb'⟩ := t
  have hinstant := canonicalText_inj ha ha' hb hb' h
  subst hinstant
  rfl

theorem canonicalDatetime_length (t : Time) :
    (canonicalDatetime t).length = 20 ∨ (canonicalDatetime t).length = 27 := by
  by_cases h : t%1000000 = 0
  · left
    simp [canonicalDatetime,digits_length,h]
  · right
    simp [canonicalDatetime,digits_length,h]

theorem canonicalDatetime_ascii (t : Time) : ∀ c ∈ canonicalDatetime t, c.toNat < 128 := by
  have hfield : ∀ (width n : ℕ), ∀ c ∈ digits 10 width n, c.toNat < 128 :=
    digits_ascii (by decide) (by decide)
  intro c hc
  simp only [canonicalDatetime,List.mem_append,List.mem_cons,List.not_mem_nil,or_false] at hc
  split at hc
  · aesop
  · aesop

end LawyerAgent.Datetimes
