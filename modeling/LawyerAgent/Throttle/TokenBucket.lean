import Mathlib.Algebra.Order.Field.Rat
import Mathlib.Data.NNRat.Defs
import Mathlib.Tactic.Linarith
import Mathlib.Tactic.Ring

/-!
# Token buckets

A bucket keeps the tokens it held at an instant and the instant itself, its
watermark. It refills at a fixed rate up to its capacity. A reading behind the
watermark refills nothing and does not move the watermark back.
-/

set_option autoImplicit false

namespace Throttle

/-- `rate` is in tokens for one tick of the clock. -/
structure Quota where
  capacity : ℚ
  rate : ℚ
  capacity_nonneg : 0 ≤ capacity
  rate_nonneg : 0 ≤ rate

@[ext] structure Bucket (q : Quota) where
  tokens : ℚ
  since : ℕ
  nonneg : 0 ≤ tokens
  bounded : tokens ≤ q.capacity

namespace Bucket

variable {q : Quota}

def fresh (q : Quota) (t : ℕ) : Bucket q := ⟨q.capacity,t,q.capacity_nonneg,le_rfl⟩

def inflow (b : Bucket q) (t : ℕ) : ℚ := (t-b.since : ℕ)*q.rate

def level (b : Bucket q) (t : ℕ) : ℚ := min q.capacity (b.tokens+b.inflow t)

theorem inflow_nonneg (b : Bucket q) (t : ℕ) : 0 ≤ b.inflow t :=
  mul_nonneg (Nat.cast_nonneg _) q.rate_nonneg

theorem inflow_mono (b : Bucket q) {s t : ℕ} (h : s ≤ t) : b.inflow s ≤ b.inflow t := by
  apply mul_le_mul_of_nonneg_right _ q.rate_nonneg
  exact_mod_cast Nat.sub_le_sub_right h b.since

theorem level_le (b : Bucket q) (t : ℕ) : b.level t ≤ q.capacity := min_le_left _ _

theorem tokens_le_level (b : Bucket q) (t : ℕ) : b.tokens ≤ b.level t :=
  le_min b.bounded (le_add_of_nonneg_right (b.inflow_nonneg t))

theorem level_nonneg (b : Bucket q) (t : ℕ) : 0 ≤ b.level t := b.nonneg.trans (b.tokens_le_level t)

theorem level_mono (b : Bucket q) {s t : ℕ} (h : s ≤ t) : b.level s ≤ b.level t :=
  min_le_min_left _ (add_le_add_right (b.inflow_mono h) b.tokens)

theorem level_growth (b : Bucket q) {s t : ℕ} (h : s ≤ t) :
    b.level t ≤ b.level s+(t-s : ℕ)*q.rate := by
  have hticks : ((t-b.since : ℕ) : ℚ) ≤ (s-b.since : ℕ)+(t-s : ℕ) := by
    exact_mod_cast (show t-b.since ≤ (s-b.since)+(t-s) by omega)
  have hinflow : b.inflow t ≤ b.inflow s+(t-s : ℕ)*q.rate := by
    have := mul_le_mul_of_nonneg_right hticks q.rate_nonneg
    rwa [add_mul] at this
  have hmore : 0 ≤ (t-s : ℕ)*q.rate := mul_nonneg (Nat.cast_nonneg _) q.rate_nonneg
  unfold level
  by_cases hfull : q.capacity ≤ b.tokens+b.inflow s
  · rw [min_eq_left hfull]
    exact (min_le_left _ _).trans (le_add_of_nonneg_right hmore)
  · rw [min_eq_right (le_of_not_ge hfull)]
    exact (min_le_right _ _).trans (by linarith)

theorem level_behind (b : Bucket q) {t : ℕ} (h : t ≤ b.since) : b.level t = b.tokens := by
  have hinflow : b.inflow t = 0 := by
    unfold inflow
    rw [Nat.sub_eq_zero_of_le h,Nat.cast_zero,zero_mul]
  rw [level,hinflow,add_zero,min_eq_right b.bounded]

theorem level_full (b : Bucket q) {t ticks : ℕ} (hticks : q.capacity ≤ ticks*q.rate)
    (h : b.since+ticks ≤ t) : b.level t = q.capacity := by
  have hle : (ticks : ℚ) ≤ (t-b.since : ℕ) := by
    exact_mod_cast (show ticks ≤ t-b.since by omega)
  have hinflow : q.capacity ≤ b.inflow t :=
    hticks.trans (mul_le_mul_of_nonneg_right hle q.rate_nonneg)
  exact min_eq_left (by linarith [b.nonneg])

theorem level_waited (b : Bucket q) {t ticks : ℕ} {x : ℚ} (hx : x ≤ q.capacity)
    (hticks : x-b.tokens ≤ ticks*q.rate) (h : b.since+ticks ≤ t) : x ≤ b.level t := by
  have hle : (ticks : ℚ) ≤ (t-b.since : ℕ) := by
    exact_mod_cast (show ticks ≤ t-b.since by omega)
  have hinflow : x-b.tokens ≤ b.inflow t :=
    hticks.trans (mul_le_mul_of_nonneg_right hle q.rate_nonneg)
  exact le_min hx (by linarith)

@[simp] theorem level_fresh (s t : ℕ) : (fresh q s).level t = q.capacity :=
  le_antisymm (level_le _ _) (tokens_le_level (fresh q s) t)

def refill (b : Bucket q) (t : ℕ) : Bucket q :=
  ⟨b.level t,max t b.since,b.level_nonneg t,b.level_le t⟩

def spend (b : Bucket q) (cost : ℚ≥0) : Bucket q :=
  if h : (cost : ℚ) ≤ b.tokens then
    ⟨b.tokens-cost,b.since,by linarith,by linarith [b.bounded,cost.coe_nonneg]⟩
  else b

@[simp] theorem spend_since (b : Bucket q) (cost : ℚ≥0) : (b.spend cost).since = b.since := by
  unfold spend
  split <;> rfl

theorem spend_tokens {b : Bucket q} {cost : ℚ≥0} (h : (cost : ℚ) ≤ b.tokens) :
    (b.spend cost).tokens = b.tokens-cost := by
  rw [spend,dif_pos h]

theorem spend_le (b : Bucket q) (cost : ℚ≥0) : (b.spend cost).tokens ≤ b.tokens := by
  by_cases h : (cost : ℚ) ≤ b.tokens
  · rw [spend_tokens h]
    linarith [cost.coe_nonneg]
  · rw [spend,dif_neg h]

theorem level_refill (b : Bucket q) (s t : ℕ) : (b.refill s).level t = b.level (max s t) := by
  have hticks : ((max s t-b.since : ℕ) : ℚ) = (s-b.since : ℕ)+(t-max s b.since : ℕ) := by
    exact_mod_cast (show max s t-b.since = (s-b.since)+(t-max s b.since) by omega)
  have hinflow : b.inflow (max s t) = b.inflow s+(b.refill s).inflow t := by
    show ((max s t-b.since : ℕ) : ℚ)*q.rate = _
    rw [hticks,add_mul]
    rfl
  have hmore := (b.refill s).inflow_nonneg t
  show min q.capacity (min q.capacity (b.tokens+b.inflow s)+(b.refill s).inflow t) = _
  rw [level,hinflow]
  by_cases hfull : q.capacity ≤ b.tokens+b.inflow s
  · rw [min_eq_left hfull,min_eq_left (by linarith),min_eq_left (by linarith)]
  · rw [min_eq_right (le_of_not_ge hfull),add_assoc]

theorem level_spend_le (b : Bucket q) (cost : ℚ≥0) (t : ℕ) :
    (b.spend cost).level t ≤ b.level t := by
  have hinflow : (b.spend cost).inflow t = b.inflow t := by
    unfold inflow
    rw [spend_since]
  unfold level
  rw [hinflow]
  exact min_le_min_left _ (add_le_add_left (b.spend_le cost) _)

theorem refill_full {b : Bucket q} {t : ℕ} (hsince : b.since ≤ t) (hfull : b.level t = q.capacity) :
    b.refill t = (fresh q t).refill t := by
  ext
  · show b.level t = (fresh q t).level t
    rw [hfull,level_fresh]
  · show max t b.since = max t t
    omega

end Bucket

end Throttle
