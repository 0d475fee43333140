import LawyerAgent.Outcomes.Except
import LawyerAgent.RateLimits
import LawyerAgent.Throttle.Histories
import Mathlib.Algebra.Order.Floor.Ring
import Mathlib.Tactic.FieldSimp

/-!
# The rate limit script

The hashes in Redis are the buckets of a shelf, and the script serves a request
of the cost one. Its reply is always one that `consume` accepts.
-/

set_option autoImplicit false

namespace LawyerAgent.RateLimitScript
open RateLimits
open Outcomes (bind_ok)
open Throttle (Quota Bucket Kept Shelf Retention found admitted settle act)

def ttl (key : Key) : ℕ := key.policy.windowSeconds*1000

def quota (key : Key) : Quota where
  capacity := key.policy.capacity
  rate := key.policy.capacity/ttl key
  capacity_nonneg := Nat.cast_nonneg _
  rate_nonneg := div_nonneg (Nat.cast_nonneg _) (Nat.cast_nonneg _)

theorem ttl_pos (key : Key) : 0 < ttl key := by
  have := (policy_positive key.member).2
  unfold ttl
  omega

theorem capacity_pos (key : Key) : 0 < key.policy.capacity := (policy_positive key.member).1

theorem capacity_rate (key : Key) : (ttl key : ℚ)*(quota key).rate = (quota key).capacity := by
  have hpos : (ttl key : ℚ) ≠ 0 := Nat.cast_ne_zero.mpr (ttl_pos key).ne'
  exact mul_div_cancel₀ _ hpos

theorem lives : Throttle.Lives quota ttl := fun key => (capacity_rate key).ge

theorem one_le_capacity (key : Key) : 1 ≤ (quota key).capacity :=
  Nat.one_le_cast.mpr (capacity_pos key)

def hashOf {q : Quota} (kept : Kept q) : Hash :=
  ⟨.number kept.bucket.tokens,.number kept.bucket.since,kept.expireAt⟩

/-- Redis as the script leaves it. -/
def stored (shelf : Shelf quota) : Redis := fun key => (shelf key).map hashOf

variable {r : Retention} {shelf : Shelf quota}

theorem bucketState_number {q : Quota} (b : Bucket q) {capacity : ℕ} (h : q.capacity = capacity)
    (now : ℕ) :
    bucketState capacity now (.number b.tokens,.number b.since) = .ok (b.tokens,b.since) := by
  apply if_neg
  have hbounded := b.bounded
  rw [h] at hbounded
  have hfloor : ((⌊(b.since : ℚ)⌋ : ℤ) : ℚ) = b.since := by
    rw [Int.floor_natCast,Int.cast_natCast]
  rintro (hlow | hhigh | hpart | hnegative)
  · exact absurd b.nonneg (not_le.mpr hlow)
  · exact absurd hbounded (not_le.mpr hhigh)
  · exact hpart hfloor.symm
  · exact absurd (Nat.cast_nonneg b.since) (not_le.mpr hnegative)

theorem bucketState_stored (now : ℕ) (key : Key) :
    bucketState key.policy.capacity now (hmget r (stored shelf) now key) =
      .ok ((found r shelf now key).tokens,((found r shelf now key).since : ℚ)) := by
  cases hkey : shelf key with
  | none =>
    have hnone : stored shelf key = none := by rw [stored,hkey,Option.map_none]
    rw [hmget,hnone,Throttle.found_none hkey]
    rfl
  | some kept =>
    have hsome : stored shelf key = some (hashOf kept) := by rw [stored,hkey,Option.map_some]
    by_cases hgone : r.gone kept.expireAt now = true
    · have hread : hmget r (stored shelf) now key = (.missing,.missing) := by
        rw [hmget,hsome]
        exact if_pos hgone
      rw [hread,Throttle.found_gone hkey hgone]
      rfl
    · have hread : hmget r (stored shelf) now key =
          (.number kept.bucket.tokens,.number kept.bucket.since) := by
        rw [hmget,hsome]
        exact if_neg hgone
      rw [hread,Throttle.found_kept hkey (Bool.eq_false_iff.mpr hgone)]
      exact bucketState_number kept.bucket rfl now

theorem elapsed_cast (now since : ℕ) : max (now : ℚ) since-since = ((now-since : ℕ) : ℚ) := by
  by_cases h : since ≤ now
  · rw [max_eq_left (Nat.cast_le.mpr h),Nat.cast_sub h]
  · have h' : now ≤ since := by omega
    rw [max_eq_right (Nat.cast_le.mpr h'),sub_self,Nat.sub_eq_zero_of_le h',Nat.cast_zero]

def planOf (r : Retention) (shelf : Shelf quota) (now : ℕ) (key : Key) : Plan :=
  let b := found r shelf now key
  ⟨key,b.level now,retryMs key.policy.capacity (ttl key) (b.level now),ttl key,
    max (now : ℚ) b.since⟩

theorem plan_stored (now : ℕ) (key : Key) :
    plan r (stored shelf) now key.argument = .ok (planOf r shelf now key) := by
  have hvalid : ¬(key.argument.capacity < 1 ∨ key.argument.windowMs < 1) := by
    have hcapacity := capacity_pos key
    have hwindow := ttl_pos key
    show ¬(key.policy.capacity < 1 ∨ ttl key < 1)
    omega
  have hlevel : ∀ b : Bucket (quota key), min (key.policy.capacity : ℚ)
      (b.tokens+(max (now : ℚ) b.since-b.since)*key.policy.capacity/ttl key) = b.level now := by
    intro b
    rw [elapsed_cast,mul_div_assoc]
    rfl
  rw [plan,if_neg hvalid]
  apply bind_ok.mpr
  refine ⟨_,bucketState_stored now key,?_⟩
  show Except.ok (Plan.mk key (min (key.policy.capacity : ℚ) _) (retryMs _ _ (min _ _)) _ _) = _
  rw [planOf,← hlevel]
  rfl

theorem plans_stored (now : ℕ) (keys : List Key) :
    (keys.map Key.argument).mapM (plan r (stored shelf) now) =
      .ok (keys.map (planOf r shelf now)) := by
  induction keys with
  | nil => rfl
  | cons key keys ih =>
    rw [List.map_cons,List.mapM_cons,plan_stored,ih]
    rfl

/-- Every key of a request is written, and what is written depends on the key only. -/
theorem write_keys (planned : Key → Plan) (hkey : ∀ key, (planned key).key = key) (allowed : Bool)
    (now : ℕ) (keys : List Key) (redis : Redis) (key : Key) :
    (keys.map planned).foldl (write allowed now) redis key =
      if key ∈ keys then
        some ⟨.number (remainder allowed (planned key).available),
          .number (planned key).effectiveNowMs,now+(planned key).windowMs⟩
      else redis key := by
  induction keys generalizing redis with
  | nil => rfl
  | cons first keys ih =>
    rw [List.map_cons,List.foldl_cons,ih]
    by_cases hin : key ∈ keys
    · rw [if_pos hin,if_pos (List.mem_cons_of_mem first hin)]
    · rw [if_neg hin,write,hkey]
      by_cases hfirst : key = first
      · subst hfirst
        rw [Function.update_self,if_pos List.mem_cons_self]
      · rw [Function.update_of_ne hfirst,if_neg]
        exact fun hmem => (List.mem_cons.mp hmem).elim hfirst hin

def request (now : ℕ) (keys : List Key) : Throttle.Request Key := ⟨now,keys,1⟩

/-- The reply, by the levels that the script finds. -/
def rawOf (keys : List Key) (level : Key → ℚ) : List ℤ :=
  let allowed := keys.all fun key => !decide (level key < 1)
  let retry := (keys.map fun key => retryMs key.policy.capacity (ttl key) (level key)).foldl max 0
  let remaining := keys.map fun key => max 0 ⌊remainder allowed (level key)⌋
  [if allowed = true then 1 else 0,remaining.min?.getD 0,⌈(retry : ℚ)/1000⌉]

theorem rawOf_congr {keys : List Key} {level level' : Key → ℚ}
    (h : ∀ key ∈ keys, level key = level' key) : rawOf keys level = rawOf keys level' := by
  have hall : (keys.all fun key => !decide (level key < 1)) =
      keys.all fun key => !decide (level' key < 1) := by
    apply Bool.eq_iff_iff.mpr
    rw [List.all_eq_true,List.all_eq_true]
    apply forall₂_congr
    intro key hkey
    rw [h key hkey]
  have hretry : (keys.map fun key => retryMs key.policy.capacity (ttl key) (level key)) =
      keys.map fun key => retryMs key.policy.capacity (ttl key) (level' key) :=
    List.map_congr_left fun key hkey => by rw [h key hkey]
  have hremaining : ∀ allowed, (keys.map fun key => max 0 ⌊remainder allowed (level key)⌋) =
      keys.map fun key => max 0 ⌊remainder allowed (level' key)⌋ := fun allowed =>
    List.map_congr_left fun key hkey => by rw [h key hkey]
  unfold rawOf
  dsimp only
  rw [hall,hretry,hremaining]

theorem all_admitted (now : ℕ) (keys : List Key) :
    (keys.all fun key => !decide ((found r shelf now key).level now < 1)) =
      admitted r shelf (request now keys) := by
  have htoken : ∀ level : ℚ, (!decide (level < 1)) = decide (((1 : ℚ≥0) : ℚ) ≤ level) := by
    intro level
    rw [NNRat.coe_one]
    by_cases h : level < 1
    · rw [decide_eq_true h,decide_eq_false (not_le.mpr h)]
      rfl
    · rw [decide_eq_false h,decide_eq_true (not_lt.mp h)]
      rfl
  unfold admitted request
  simp only [htoken]

theorem remainder_settle {now : ℕ} {keys : List Key} {key : Key} (hkey : key ∈ keys) :
    remainder (admitted r shelf (request now keys)) ((found r shelf now key).level now) =
      (settle (admitted r shelf (request now keys)) (request now keys)
        (found r shelf now key)).tokens := by
  by_cases hadmitted : admitted r shelf (request now keys) = true
  · have henough := Throttle.admitted_iff.mp hadmitted key hkey
    rw [hadmitted]
    exact (Bucket.spend_tokens (b := (found r shelf now key).refill now) henough).symm
  · rw [Bool.eq_false_iff.mpr hadmitted]
    rfl

theorem lua_stored (now : ℕ) (keys : List Key) :
    rateLimitLua r now (keys.map Key.argument) (stored shelf) =
      .ok (rawOf keys fun key => (found r shelf now key).level now,
        stored (act r ttl shelf (.serve (request now keys)))) := by
  have hallowed : ((keys.map (planOf r shelf now)).all fun p => !decide (p.available < 1)) =
      admitted r shelf (request now keys) := by
    rw [List.all_map]
    exact all_admitted now keys
  have hwritten : (keys.map (planOf r shelf now)).foldl
      (write (admitted r shelf (request now keys)) now) (stored shelf) =
        stored (act r ttl shelf (.serve (request now keys))) := by
    ext key : 1
    rw [write_keys (planOf r shelf now) (fun _ => rfl)]
    by_cases hkey : key ∈ keys
    · have hserved : key ∈ (request now keys).keys := hkey
      rw [if_pos hkey,stored,Throttle.act_served hserved,Option.map_some,hashOf]
      have hsince := Throttle.settle_since (admitted r shelf (request now keys)) (request now keys)
        (found r shelf now key)
      have hcast : max (now : ℚ) (found r shelf now key).since =
          ((max now (found r shelf now key).since : ℕ) : ℚ) := (Nat.cast_max _ _).symm
      show some (Hash.mk (.number (remainder _ ((found r shelf now key).level now)))
        (.number (max (now : ℚ) (found r shelf now key).since)) (now+ttl key)) = _
      rw [remainder_settle hkey,hcast]
      show _ = some (Hash.mk _
        (.number (settle _ (request now keys) (found r shelf now key)).since) _)
      rw [hsince]
      rfl
    · rw [if_neg hkey,stored,stored,Throttle.act_unserved hkey]
  rw [rateLimitLua,plans_stored]
  show Except.ok _ = _
  rw [hallowed,hwritten]
  simp only [rawOf,all_admitted,List.map_map]
  rfl

theorem least_spec (xs : List ℤ) (h : xs ≠ []) :
    xs.min?.getD 0 ∈ xs ∧ ∀ x ∈ xs, xs.min?.getD 0 ≤ x := by
  cases hmin : xs.min? with
  | none => exact absurd (List.min?_eq_none_iff.mp hmin) h
  | some least => exact List.min?_eq_some_iff.mp hmin

theorem greatest_spec (xs : List ℤ) :
    xs.foldl max 0 ∈ 0::xs ∧ ∀ x ∈ 0::xs, x ≤ xs.foldl max 0 := List.max?_eq_some_iff.mp rfl

section
variable {key : Key} {level : ℚ}

theorem retryMs_full (h : 1 ≤ level) : retryMs key.policy.capacity (ttl key) level = 0 :=
  if_neg (not_lt.mpr h)

theorem retryMs_missing (h : level < 1) : retryMs key.policy.capacity (ttl key) level =
    ⌈(1-level)*ttl key/key.policy.capacity⌉ := if_pos h

theorem retryMs_enough :
    1-level ≤ (retryMs key.policy.capacity (ttl key) level : ℚ)*(quota key).rate := by
  have hcapacity : (0 : ℚ) < key.policy.capacity := Nat.cast_pos.mpr (capacity_pos key)
  have hwindow : (0 : ℚ) < ttl key := Nat.cast_pos.mpr (ttl_pos key)
  by_cases h : level < 1
  · rw [retryMs_missing h]
    have hceil := Int.le_ceil ((1-level)*ttl key/key.policy.capacity)
    have hrate := mul_le_mul_of_nonneg_right hceil (quota key).rate_nonneg
    have hexact : (1-level)*ttl key/key.policy.capacity*(quota key).rate = 1-level := by
      show (1-level)*ttl key/key.policy.capacity*(key.policy.capacity/ttl key) = _
      field_simp
    rwa [hexact] at hrate
  · have h' : 1 ≤ level := not_lt.mp h
    rw [retryMs_full h',Int.cast_zero,zero_mul]
    linarith

theorem retryMs_pos (h : level < 1) : 1 ≤ retryMs key.policy.capacity (ttl key) level := by
  have hcapacity : (0 : ℚ) < key.policy.capacity := Nat.cast_pos.mpr (capacity_pos key)
  have hwindow : (0 : ℚ) < ttl key := Nat.cast_pos.mpr (ttl_pos key)
  rw [retryMs_missing h]
  apply Int.one_le_ceil_iff.mpr
  exact div_pos (mul_pos (by linarith) hwindow) hcapacity

theorem retryMs_le (h : 0 ≤ level) : retryMs key.policy.capacity (ttl key) level ≤
    1000*⌈(key.policy.windowSeconds : ℚ)/key.policy.capacity⌉ := by
  have hcapacity : (0 : ℚ) < key.policy.capacity := Nat.cast_pos.mpr (capacity_pos key)
  have hseconds := Int.le_ceil ((key.policy.windowSeconds : ℚ)/key.policy.capacity)
  have hnonneg : 0 ≤ (key.policy.windowSeconds : ℚ)/key.policy.capacity :=
    div_nonneg (Nat.cast_nonneg _) hcapacity.le
  by_cases hlevel : level < 1
  · rw [retryMs_missing hlevel]
    apply Int.ceil_le.mpr
    have hmissing : (1-level)*ttl key/key.policy.capacity =
        (1-level)*(1000*((key.policy.windowSeconds : ℚ)/key.policy.capacity)) := by
      unfold ttl
      push_cast
      ring
    rw [hmissing]
    push_cast
    nlinarith
  · rw [retryMs_full (not_lt.mp hlevel)]
    have : 0 ≤ ⌈(key.policy.windowSeconds : ℚ)/key.policy.capacity⌉ := Int.ceil_nonneg hnonneg
    omega

end

section
variable {rule : RateLimitRule} {keys : List Key} {level : Key → ℚ}

theorem policy_mem (hpolicies : keys.map Key.policy = policies rule) {key : Key}
    (hkey : key ∈ keys) : key.policy ∈ policies rule := by
  rw [← hpolicies]
  exact List.mem_map_of_mem hkey

theorem keys_nonempty (hpolicies : keys.map Key.policy = policies rule) : keys ≠ [] := by
  intro hnone
  rw [hnone] at hpolicies
  cases rule <;> cases hpolicies

theorem rawOf_allowed (hpolicies : keys.map Key.policy = policies rule)
    (hlevel : ∀ key, level key ≤ (quota key).capacity) (h : ∀ key ∈ keys, 1 ≤ level key) :
    ∃ remaining, rawOf keys level = [1,remaining,0] ∧ 0 ≤ remaining ∧
      remaining ≤ maximumRemaining rule := by
  have hall : (keys.all fun key => !decide (level key < 1)) = true := by
    apply List.all_eq_true.mpr
    intro key hkey
    rw [decide_eq_false (not_lt.mpr (h key hkey))]
    rfl
  have hretry : (keys.map fun key =>
      retryMs key.policy.capacity (ttl key) (level key)).foldl max 0 = 0 := by
    have hmem := (greatest_spec (keys.map fun key =>
      retryMs key.policy.capacity (ttl key) (level key))).1
    rcases List.mem_cons.mp hmem with hzero | hin
    · exact hzero
    · obtain ⟨key,hkey,hvalue⟩ := List.mem_map.mp hin
      rw [← hvalue]
      exact retryMs_full (h key hkey)
  have hleast := least_spec (keys.map fun key => max 0 ⌊remainder true (level key)⌋)
    (by simpa using keys_nonempty hpolicies)
  refine ⟨(keys.map fun key => max 0 ⌊remainder true (level key)⌋).min?.getD 0,?_,?_,?_⟩
  · unfold rawOf
    rw [hall,hretry]
    dsimp only
    rw [Int.cast_zero,zero_div,Int.ceil_zero]
    rfl
  · obtain ⟨key,-,hvalue⟩ := List.mem_map.mp hleast.1
    rw [← hvalue]
    exact le_max_left _ _
  · have hmost := least_spec ((policies rule).map fun policy => (policy.capacity : ℤ)-1)
      (by cases rule <;> simp [policies])
    obtain ⟨policy,hpolicy,hvalue⟩ := List.mem_map.mp hmost.1
    rw [← hpolicies] at hpolicy
    obtain ⟨key,hkey,rfl⟩ := List.mem_map.mp hpolicy
    rw [maximumRemaining,← hvalue]
    apply (hleast.2 _ (List.mem_map_of_mem hkey)).trans
    have hcapacity := capacity_pos key
    have hfull : level key-1 ≤ ((key.policy.capacity : ℤ)-1 : ℤ) := by
      have := hlevel key
      push_cast
      exact sub_le_sub_right this 1
    apply max_le
    · omega
    · exact Int.floor_le_iff.mpr (lt_of_le_of_lt hfull (lt_add_one _))

theorem rawOf_denied (hpolicies : keys.map Key.policy = policies rule)
    (hlevel : ∀ key, 0 ≤ level key) {short : Key} (hshort : short ∈ keys) (h : level short < 1) :
    ∃ retry : ℤ, rawOf keys level = [0,0,retry] ∧ 1 ≤ retry ∧ retry ≤ maximumRetryAfter rule ∧
      ∀ key ∈ keys, 1-level key ≤ ((retry*1000 : ℤ) : ℚ)*(quota key).rate := by
  have hall : (keys.all fun key => !decide (level key < 1)) = false := by
    apply List.all_eq_false.mpr
    refine ⟨short,hshort,?_⟩
    rw [decide_eq_true h]
    simp
  have hleast := least_spec (keys.map fun key => max 0 ⌊remainder false (level key)⌋)
    (by simpa using keys_nonempty hpolicies)
  have hzero : (keys.map fun key => max 0 ⌊remainder false (level key)⌋).min?.getD 0 = 0 := by
    apply le_antisymm
    · apply (hleast.2 _ (List.mem_map_of_mem hshort)).trans
      apply max_le le_rfl
      exact Int.floor_le_iff.mpr (by simpa [remainder] using h)
    · obtain ⟨key,-,hvalue⟩ := List.mem_map.mp hleast.1
      rw [← hvalue]
      exact le_max_left _ _
  have hgreatest := greatest_spec (keys.map fun key =>
    retryMs key.policy.capacity (ttl key) (level key))
  generalize hretry : (keys.map fun key =>
    retryMs key.policy.capacity (ttl key) (level key)).foldl max 0 = retry at hgreatest
  have hbound : ∀ key ∈ keys, retryMs key.policy.capacity (ttl key) (level key) ≤ retry :=
    fun key hkey => hgreatest.2 _ (List.mem_cons_of_mem _ (List.mem_map_of_mem hkey))
  have hseconds : retry ≤ ⌈(retry : ℚ)/1000⌉*1000 := by
    have hceil := Int.le_ceil ((retry : ℚ)/1000)
    have hcast : (retry : ℚ) ≤ ((⌈(retry : ℚ)/1000⌉*1000 : ℤ) : ℚ) := by
      push_cast
      linarith
    exact_mod_cast hcast
  refine ⟨⌈(retry : ℚ)/1000⌉,?_,?_,?_,?_⟩
  · unfold rawOf
    rw [hall,hretry]
    dsimp only
    rw [hzero]
    rfl
  · have hpos := (retryMs_pos h).trans (hbound short hshort)
    omega
  · have hmost := greatest_spec ((policies rule).map fun policy =>
      ⌈(policy.windowSeconds : ℚ)/policy.capacity⌉)
    have hlimit : retry ≤ 1000*maximumRetryAfter rule := by
      rcases List.mem_cons.mp hgreatest.1 with hnone | hin
      · have := hmost.2 0 List.mem_cons_self
        rw [hnone]
        exact mul_nonneg (by decide) this
      · obtain ⟨key,hkey,hvalue⟩ := List.mem_map.mp hin
        rw [← hvalue]
        apply (retryMs_le (hlevel key)).trans
        apply Int.mul_le_mul_of_nonneg_left _ (by decide)
        exact hmost.2 _ (List.mem_cons_of_mem _ (List.mem_map_of_mem (policy_mem hpolicies hkey)))
    apply Int.ceil_le.mpr
    have hcast : (retry : ℚ) ≤ ((1000*maximumRetryAfter rule : ℤ) : ℚ) := Int.cast_le.mpr hlimit
    push_cast at hcast
    linarith
  · intro key hkey
    apply retryMs_enough.trans
    apply mul_le_mul_of_nonneg_right _ (quota key).rate_nonneg
    exact Int.cast_le.mpr ((hbound key hkey).trans hseconds)

theorem decision_allowed {remaining : ℤ} (hlow : 0 ≤ remaining)
    (hhigh : remaining ≤ maximumRemaining rule) :
    ∃ d, decision rule [1,remaining,0] = .ok d ∧ d.allowed = true := by
  have hparse : parseDecision [1,remaining,0] (maximumRemaining rule) (maximumRetryAfter rule) =
      .ok (true,remaining,0) := by
    simp [parseDecision,hlow,hhigh]
  refine ⟨⟨true,remaining.toNat,0,by simp⟩,?_,rfl⟩
  rw [decision,hparse]
  show rateLimitDecision true remaining 0 = _
  simp [rateLimitDecision,hlow]

theorem decision_denied {retry : ℤ} (hlow : 1 ≤ retry) (hhigh : retry ≤ maximumRetryAfter rule) :
    ∃ d, decision rule [0,0,retry] = .ok d ∧ d.allowed = false ∧
      (d.retryAfterSeconds : ℤ) = retry := by
  have hparse : parseDecision [0,0,retry] (maximumRemaining rule) (maximumRetryAfter rule) =
      .ok (false,0,retry) := by
    simp [parseDecision,hlow,hhigh]
  refine ⟨⟨false,0,retry.toNat,by simp; omega⟩,?_,rfl,by simp; omega⟩
  rw [decision,hparse]
  show rateLimitDecision false 0 retry = _
  have hnonneg : ¬retry < 0 := by omega
  have hpos : ¬retry < 1 := by omega
  simp [rateLimitDecision,hnonneg,hpos]

end

end LawyerAgent.RateLimitScript
