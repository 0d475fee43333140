import LawyerAgent.Throttle.TokenBucket

/-!
# Shelves of token buckets

Buckets under keys. A request names several keys and either pays its cost out of
every bucket or out of none. A key that is not used for its time to live may
vanish; a missing key counts as a full bucket.
-/

set_option autoImplicit false

namespace Throttle

/-- Whether keys vanish when their time to live is over. -/
inductive Retention where
  | expiring
  | lasting
deriving DecidableEq

def Retention.gone (r : Retention) (expireAt now : ℕ) : Bool :=
  match r with
  | .expiring => decide (expireAt < now)
  | .lasting => false

structure Kept (q : Quota) where
  bucket : Bucket q
  expireAt : ℕ

structure Request (κ : Type) where
  reading : ℕ
  keys : List κ
  cost : ℚ≥0

variable {κ : Type}

abbrev Shelf (quota : κ → Quota) : Type := ∀ k, Option (Kept (quota k))

variable {quota : κ → Quota} (r : Retention)

def found (shelf : Shelf quota) (now : ℕ) (k : κ) : Bucket (quota k) :=
  match shelf k with
  | some kept => if r.gone kept.expireAt now = true then .fresh (quota k) now else kept.bucket
  | none => .fresh (quota k) now

def held (shelf : Shelf quota) (k : κ) (t : ℕ) : ℚ :=
  match shelf k with
  | some kept => kept.bucket.level t
  | none => (quota k).capacity

def admitted (shelf : Shelf quota) (call : Request κ) : Bool :=
  call.keys.all fun k => decide (call.cost ≤ (found r shelf call.reading k).level call.reading)

def settle {q : Quota} (paying : Bool) (call : Request κ) (b : Bucket q) : Bucket q :=
  if paying = true then (b.refill call.reading).spend call.cost else b.refill call.reading

variable {r} {shelf : Shelf quota} {k : κ}

theorem found_none {now : ℕ} (h : shelf k = none) : found r shelf now k = .fresh (quota k) now := by
  rw [found,h]

variable {kept : Kept (quota k)} {call : Request κ}

theorem found_gone {now : ℕ} (h : shelf k = some kept) (hgone : r.gone kept.expireAt now = true) :
    found r shelf now k = .fresh (quota k) now := by
  rw [found,h]
  exact if_pos hgone

theorem found_kept {now : ℕ} (h : shelf k = some kept) (hgone : r.gone kept.expireAt now = false) :
    found r shelf now k = kept.bucket := by
  rw [found,h]
  exact if_neg (by simp [hgone])

theorem held_some (h : shelf k = some kept) (t : ℕ) :
    held shelf k t = kept.bucket.level t := by
  rw [held,h]

theorem held_none (h : shelf k = none) (t : ℕ) : held shelf k t = (quota k).capacity := by
  rw [held,h]

theorem held_le (t : ℕ) : held shelf k t ≤ (quota k).capacity := by
  cases hk : shelf k with
  | none => rw [held_none hk]
  | some kept =>
    rw [held_some hk]
    exact kept.bucket.level_le t

theorem held_nonneg (t : ℕ) : 0 ≤ held shelf k t := by
  cases hk : shelf k with
  | none =>
    rw [held_none hk]
    exact (quota k).capacity_nonneg
  | some kept =>
    rw [held_some hk]
    exact kept.bucket.level_nonneg t

theorem held_growth {s t : ℕ} (h : s ≤ t) :
    held shelf k t ≤ held shelf k s+(t-s : ℕ)*(quota k).rate := by
  cases hk : shelf k with
  | none =>
    rw [held_none hk,held_none hk]
    exact le_add_of_nonneg_right (mul_nonneg (Nat.cast_nonneg _) (quota k).rate_nonneg)
  | some kept =>
    rw [held_some hk,held_some hk]
    exact kept.bucket.level_growth h

theorem held_le_found (now t : ℕ) : held shelf k t ≤ (found r shelf now k).level t := by
  cases hk : shelf k with
  | none => rw [held_none hk,found_none hk,Bucket.level_fresh]
  | some kept =>
    by_cases hgone : r.gone kept.expireAt now = true
    · rw [found_gone hk hgone,Bucket.level_fresh]
      exact held_le t
    · rw [held_some hk,found_kept hk (Bool.eq_false_iff.mpr hgone)]

theorem settle_since {q : Quota} (paying : Bool) (call : Request κ) (b : Bucket q) :
    (settle paying call b).since = max call.reading b.since := by
  unfold settle
  split
  · exact Bucket.spend_since _ _
  · rfl

theorem level_settle_le {q : Quota} (paying : Bool) (call : Request κ) (b : Bucket q) (t : ℕ) :
    (settle paying call b).level t ≤ b.level (max call.reading t) := by
  rw [← Bucket.level_refill]
  unfold settle
  split
  · exact Bucket.level_spend_le _ _ _
  · exact le_rfl

theorem admitted_iff : admitted r shelf call = true ↔
    ∀ k ∈ call.keys, (call.cost : ℚ) ≤ (found r shelf call.reading k).level call.reading := by
  simp [admitted]

inductive Event (κ : Type) where
  | serve (call : Request κ)
  | expire (reading : ℕ) (key : κ)

def Event.reading : Event κ → ℕ
  | .serve call => call.reading
  | .expire reading _ => reading

variable [DecidableEq κ]

def Event.touches (k : κ) : Event κ → Bool
  | .serve call => decide (k ∈ call.keys)
  | .expire _ key => decide (k = key)

variable (r) (ttl : κ → ℕ)

def act (shelf : Shelf quota) : Event κ → Shelf quota
  | .serve call => fun k =>
    if k ∈ call.keys then
      some ⟨settle (admitted r shelf call) call (found r shelf call.reading k),call.reading+ttl k⟩
    else shelf k
  | .expire reading key => fun k =>
    if k = key then (shelf k).filter fun kept => !r.gone kept.expireAt reading else shelf k

def run (shelf : Shelf quota) (events : List (Event κ)) : Shelf quota :=
  events.foldl (act r ttl) shelf

/-- What an event takes out of the bucket of a key, if it takes anything. -/
def paid (k : κ) (shelf : Shelf quota) : Event κ → Option ℚ≥0
  | .serve call => if k ∈ call.keys ∧ admitted r shelf call = true then some call.cost else none
  | .expire _ _ => none

/-- What the events with readings from `first` to `last` take. -/
def total (k : κ) (first last : ℕ) : Shelf quota → List (Event κ) → ℚ
  | _, [] => 0
  | shelf, e::es =>
    (if first ≤ e.reading ∧ e.reading ≤ last then (((paid r k shelf e).getD 0 : ℚ≥0) : ℚ) else 0)+
      total k first last (act r ttl shelf e) es

variable {r} {ttl}

theorem act_untouched {e : Event κ} (h : e.touches k = false) : act r ttl shelf e k = shelf k := by
  cases e with
  | serve call => exact if_neg (of_decide_eq_false h)
  | expire reading key => exact if_neg (of_decide_eq_false h)

theorem act_served (h : k ∈ call.keys) : act r ttl shelf (.serve call) k =
    some ⟨settle (admitted r shelf call) call (found r shelf call.reading k),
      call.reading+ttl k⟩ := if_pos h

theorem act_unserved (h : k ∉ call.keys) :
    act r ttl shelf (.serve call) k = shelf k := if_neg h

theorem act_expired {reading : ℕ} : act r ttl shelf (.expire reading k) k =
    (shelf k).filter fun kept => !r.gone kept.expireAt reading := if_pos rfl

theorem act_dropped {reading : ℕ} (h : shelf k = some kept)
    (hgone : r.gone kept.expireAt reading = true) :
    act r ttl shelf (.expire reading k) k = none := by
  rw [act_expired,h]
  simp [hgone]

theorem act_live {reading : ℕ} (h : shelf k = some kept)
    (hgone : r.gone kept.expireAt reading = false) :
    act r ttl shelf (.expire reading k) k = some kept := by
  rw [act_expired,h]
  simp [hgone]

theorem act_absent {reading : ℕ} (h : shelf k = none) :
    act r ttl shelf (.expire reading k) k = none := by
  rw [act_expired,h]
  rfl

theorem found_denied (h : admitted r shelf call = false) (k : κ) :
    (found r (act r ttl shelf (.serve call)) call.reading k).level call.reading =
      (found r shelf call.reading k).level call.reading := by
  by_cases hk : k ∈ call.keys
  · have hlive : r.gone (call.reading+ttl k) call.reading = false := by
      cases r with
      | expiring => exact decide_eq_false (Nat.not_lt.mpr (Nat.le_add_right _ _))
      | lasting => rfl
    rw [found_kept (act_served hk) hlive,h]
    show ((found r shelf call.reading k).refill call.reading).level call.reading = _
    rw [Bucket.level_refill,max_self]
  · rw [found,act_unserved hk,← found]

theorem held_unpaid {e : Event κ} (h : paid r k shelf e = none) (t : ℕ) :
    held shelf k t ≤ held (act r ttl shelf e) k t := by
  by_cases htouch : e.touches k = true
  · cases e with
    | serve call =>
      have hk : k ∈ call.keys := of_decide_eq_true htouch
      have hdenied : admitted r shelf call = false := by
        by_contra hadmitted
        have hpaid : paid r k shelf (.serve call) = some call.cost :=
          if_pos ⟨hk,Bool.eq_true_of_not_eq_false hadmitted⟩
        rw [hpaid] at h
        cases h
      rw [held_some (act_served hk),hdenied]
      show _ ≤ ((found r shelf call.reading k).refill call.reading).level t
      rw [Bucket.level_refill]
      exact (held_le_found _ _).trans (Bucket.level_mono _ (le_max_right _ _))
    | expire reading key =>
      have hkey : k = key := of_decide_eq_true htouch
      subst hkey
      cases hk : shelf k with
      | none => rw [held_none hk,held_none (act_absent hk)]
      | some kept =>
        by_cases hgone : r.gone kept.expireAt reading = true
        · rw [held_none (act_dropped hk hgone)]
          exact held_le t
        · rw [held_some hk,held_some (act_live hk (Bool.eq_false_iff.mpr hgone))]
  · rw [held,held,act_untouched (Bool.eq_false_iff.mpr htouch)]

def Untapped (r : Retention) (ttl : κ → ℕ) (k : κ) : Shelf quota → List (Event κ) → Prop
  | _, [] => True
  | shelf, e::es => paid r k shelf e = none ∧ Untapped r ttl k (act r ttl shelf e) es

theorem held_untapped {events : List (Event κ)} (h : Untapped r ttl k shelf events) (t : ℕ) :
    held shelf k t ≤ held (run r ttl shelf events) k t := by
  induction events generalizing shelf with
  | nil => exact le_rfl
  | cons e es ih => exact (held_unpaid h.1 t).trans (ih h.2)

/-- A denied request is admitted at any reading that is far enough ahead of the
watermarks, when nothing else was paid from its keys. -/
theorem admitted_waited {events : List (Event κ)} {t ticks : ℕ}
    (hdenied : admitted r shelf call = false)
    (hcost : ∀ k ∈ call.keys, (call.cost : ℚ) ≤ (quota k).capacity)
    (hticks : ∀ k ∈ call.keys, (call.cost : ℚ)-(found r shelf call.reading k).level call.reading ≤
      ticks*(quota k).rate)
    (hbefore : ∀ k ∈ call.keys, max call.reading (found r shelf call.reading k).since+ticks ≤ t)
    (huntapped : ∀ k ∈ call.keys, Untapped r ttl k (act r ttl shelf (.serve call)) events) :
    admitted r (run r ttl (act r ttl shelf (.serve call)) events)
      ⟨t,call.keys,call.cost⟩ = true := by
  apply admitted_iff.mpr
  intro k hk
  apply le_trans _ ((held_untapped (huntapped k hk) t).trans (held_le_found _ _))
  have hk' : k ∈ call.keys := hk
  rw [held_some (act_served hk'),hdenied]
  exact Bucket.level_waited ((found r shelf call.reading k).refill call.reading) (hcost k hk)
    (hticks k hk) (hbefore k hk)

end Throttle
