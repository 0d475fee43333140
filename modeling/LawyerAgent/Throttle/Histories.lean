import LawyerAgent.Throttle.Shelf

/-!
# Histories of a shelf

Where the readings of a key never go back, its bucket pays in any span of time
at most its capacity and what came in during the span, and a key that vanished
is not told from a bucket that filled up again. Both need a time to live in which
a bucket fills up.
-/

set_option autoImplicit false

namespace Throttle

variable {κ : Type} [DecidableEq κ] {quota : κ → Quota} {ttl : κ → ℕ} {r : Retention}
variable {shelf : Shelf quota} {k : κ}

def Lives (quota : κ → Quota) (ttl : κ → ℕ) : Prop :=
  ∀ k, (quota k).capacity ≤ ttl k*(quota k).rate

/-- The key of a bucket was last used at its watermark, not after `now`. -/
structure Settled (ttl : κ → ℕ) (now : ℕ) (shelf : Shelf quota) (k : κ) : Prop where
  behind : ∀ kept, shelf k = some kept → kept.bucket.since ≤ now
  lasts : ∀ kept, shelf k = some kept → kept.bucket.since+ttl k ≤ kept.expireAt

omit [DecidableEq κ] in
theorem gone_full {kept : Kept (quota k)} {now t : ℕ} (hlives : Lives quota ttl)
    (hlasts : kept.bucket.since+ttl k ≤ kept.expireAt) (hgone : r.gone kept.expireAt now = true)
    (h : now ≤ t) : kept.bucket.since ≤ t ∧ kept.bucket.level t = (quota k).capacity := by
  cases r with
  | expiring =>
    have hlate : kept.expireAt < now := of_decide_eq_true hgone
    constructor
    · omega
    · exact Bucket.level_full _ (hlives k) (by omega)
  | lasting => exact absurd hgone (by simp [Retention.gone])

omit [DecidableEq κ] in
theorem found_refill (hlives : Lives quota ttl) (now : ℕ)
    (hlasts : ∀ kept, shelf k = some kept → kept.bucket.since+ttl k ≤ kept.expireAt) :
    (found .expiring shelf now k).refill now = (found .lasting shelf now k).refill now := by
  cases hk : shelf k with
  | none => rw [found_none hk,found_none hk]
  | some kept =>
    rw [found_kept (r := .lasting) hk rfl]
    by_cases hgone : Retention.expiring.gone kept.expireAt now = true
    · have hfull := gone_full hlives (hlasts kept hk) hgone le_rfl
      rw [found_gone hk hgone]
      exact (Bucket.refill_full hfull.1 hfull.2).symm
    · rw [found_kept hk (Bool.eq_false_iff.mpr hgone)]

omit [DecidableEq κ] in
theorem found_held (hlives : Lives quota ttl) {now t : ℕ} (hsettled : Settled ttl now shelf k)
    {reading : ℕ} (h : reading ≤ t) : (found r shelf reading k).level t = held shelf k t := by
  cases hk : shelf k with
  | none => rw [found_none hk,held_none hk,Bucket.level_fresh]
  | some kept =>
    rw [held_some hk]
    by_cases hgone : r.gone kept.expireAt reading = true
    · rw [found_gone hk hgone,Bucket.level_fresh,
        (gone_full hlives (hsettled.lasts kept hk) hgone h).2]
    · rw [found_kept hk (Bool.eq_false_iff.mpr hgone)]

omit [DecidableEq κ] in
theorem found_since {bound reading : ℕ}
    (hbehind : ∀ kept, shelf k = some kept → kept.bucket.since ≤ bound)
    (h : reading ≤ bound) : (found r shelf reading k).since ≤ bound := by
  cases hk : shelf k with
  | none =>
    rw [found_none hk]
    exact h
  | some kept =>
    by_cases hgone : r.gone kept.expireAt reading = true
    · rw [found_gone hk hgone]
      exact h
    · rw [found_kept hk (Bool.eq_false_iff.mpr hgone)]
      exact hbehind kept hk

variable {e : Event κ} {now : ℕ} {events : List (Event κ)}

theorem settled_act (hsettled : Settled ttl now shelf k) (htouch : e.touches k = true)
    (h : now ≤ e.reading) :
    Settled ttl e.reading (act r ttl shelf e) k := by
  cases e with
  | serve call =>
    have hk : k ∈ call.keys := of_decide_eq_true htouch
    have hcall : now ≤ call.reading := h
    have hsince : ∀ kept, act r ttl shelf (.serve call) k = some kept →
        kept.bucket.since = call.reading ∧ kept.expireAt = call.reading+ttl k := by
      intro kept hkept
      rw [act_served hk] at hkept
      cases hkept
      have hbehind := found_since (r := r)
        (fun kept hkept => (hsettled.behind kept hkept).trans hcall) le_rfl
      rw [settle_since,max_eq_left hbehind]
      exact ⟨rfl,rfl⟩
    constructor
    · intro kept hkept
      exact (hsince kept hkept).1.le
    · intro kept hkept
      rw [(hsince kept hkept).1,(hsince kept hkept).2]
  | expire reading key =>
    have hkey : k = key := of_decide_eq_true htouch
    subst hkey
    have hsame : ∀ kept, act r ttl shelf (.expire reading k) k = some kept →
        shelf k = some kept := by
      intro kept hkept
      rw [act_expired] at hkept
      exact (Option.filter_eq_some_iff.mp hkept).1
    constructor
    · intro kept hkept
      exact (hsettled.behind kept (hsame kept hkept)).trans h
    · intro kept hkept
      exact hsettled.lasts kept (hsame kept hkept)

theorem settled_untouched (hsettled : Settled ttl now shelf k) (htouch : e.touches k = false) :
    Settled ttl now (act r ttl shelf e) k := by
  constructor
  · rw [act_untouched htouch]
    exact hsettled.behind
  · rw [act_untouched htouch]
    exact hsettled.lasts

theorem held_act_le (hlives : Lives quota ttl) {now t : ℕ} (hsettled : Settled ttl now shelf k)
    (htouch : e.touches k = true) (ht : e.reading ≤ t) :
    held (act r ttl shelf e) k t ≤ held shelf k t := by
  cases e with
  | serve call =>
    have hk : k ∈ call.keys := of_decide_eq_true htouch
    have ht' : call.reading ≤ t := ht
    rw [held_some (act_served hk)]
    apply (level_settle_le _ _ _ _).trans
    rw [max_eq_right ht',found_held hlives hsettled ht']
  | expire reading key =>
    have hkey : k = key := of_decide_eq_true htouch
    subst hkey
    cases hk : shelf k with
    | none =>
      rw [held_none hk]
      exact held_le t
    | some kept =>
      by_cases hgone : r.gone kept.expireAt reading = true
      · rw [held_some hk,(gone_full hlives (hsettled.lasts kept hk) hgone ht).2]
        exact held_le t
      · rw [held_some (act_live hk (Bool.eq_false_iff.mpr hgone)),held_some hk]

theorem held_act_paid (hlives : Lives quota ttl) (hsettled : Settled ttl now shelf k)
    (htouch : e.touches k = true) :
    (((paid r k shelf e).getD 0 : ℚ≥0) : ℚ)+held (act r ttl shelf e) k e.reading ≤
      held shelf k e.reading := by
  cases hpaid : paid r k shelf e with
  | none =>
    rw [Option.getD_none,NNRat.coe_zero,zero_add]
    exact held_act_le hlives hsettled htouch le_rfl
  | some cost =>
    cases e with
    | serve call =>
      have hserved : k ∈ call.keys ∧ admitted r shelf call = true := by
        by_contra hnot
        rw [paid,if_neg hnot] at hpaid
        cases hpaid
      have hcost : call.cost = cost := by
        rw [paid,if_pos hserved] at hpaid
        exact Option.some.inj hpaid
      have henough := admitted_iff.mp hserved.2 k hserved.1
      have hlevel : held (act r ttl shelf (.serve call)) k call.reading =
          (found r shelf call.reading k).level call.reading-call.cost := by
        rw [held_some (act_served hserved.1),Bucket.level_behind,hserved.2]
        · exact Bucket.spend_tokens henough
        · rw [settle_since]
          exact le_max_left _ _
      show (cost : ℚ)+held (act r ttl shelf (.serve call)) k call.reading ≤
        held shelf k call.reading
      rw [hlevel,found_held hlives hsettled le_rfl,hcost]
      linarith
    | expire reading key => cases hpaid

/-- What a key can still pay from `now` on in the span from `first` to `last`. -/
def reserve (first last now : ℕ) (shelf : Shelf quota) (k : κ) : ℚ :=
  if max first now ≤ last then
    held shelf k (max first now)+(last-max first now : ℕ)*(quota k).rate
  else 0

omit [DecidableEq κ] in
theorem reserve_later {first last now later : ℕ} (h : now ≤ later) :
    reserve first last later shelf k ≤ reserve first last now shelf k := by
  have hmore : ∀ n : ℕ, 0 ≤ (n : ℚ)*(quota k).rate := fun n =>
    mul_nonneg (Nat.cast_nonneg _) (quota k).rate_nonneg
  unfold reserve
  by_cases hlater : max first later ≤ last
  · have hnow : max first now ≤ last := by omega
    have hgrowth : held shelf k (max first later) ≤ held shelf k (max first now)+
        ((max first later-max first now : ℕ) : ℚ)*(quota k).rate := held_growth (by omega)
    have hticks : ((last-max first now : ℕ) : ℚ) =
        (max first later-max first now : ℕ)+(last-max first later : ℕ) := by
      exact_mod_cast (show last-max first now =
        (max first later-max first now)+(last-max first later) by omega)
    rw [if_pos hlater,if_pos hnow,hticks,add_mul]
    linarith
  · rw [if_neg hlater]
    split
    · exact add_nonneg (held_nonneg _) (hmore _)
    · exact le_rfl

omit [DecidableEq κ] in
theorem reserve_le {first last now : ℕ} (h : first ≤ last) : reserve first last now shelf k ≤
    (quota k).capacity+(last-first : ℕ)*(quota k).rate := by
  unfold reserve
  split
  · have hticks : ((last-max first now : ℕ) : ℚ) ≤ (last-first : ℕ) := by
      exact_mod_cast (show last-max first now ≤ last-first by omega)
    exact add_le_add (held_le _) (mul_le_mul_of_nonneg_right hticks (quota k).rate_nonneg)
  · exact add_nonneg (quota k).capacity_nonneg
      (mul_nonneg (Nat.cast_nonneg _) (quota k).rate_nonneg)

theorem reserve_act (hlives : Lives quota ttl) {first last now : ℕ}
    (hsettled : Settled ttl now shelf k) (htouch : e.touches k = true) :
    (if first ≤ e.reading ∧ e.reading ≤ last then (((paid r k shelf e).getD 0 : ℚ≥0) : ℚ) else 0)+
      reserve first last e.reading (act r ttl shelf e) k ≤
        reserve first last e.reading shelf k := by
  unfold reserve
  by_cases hspan : max first e.reading ≤ last
  · rw [if_pos hspan,if_pos hspan]
    by_cases hfirst : first ≤ e.reading
    · have hpaid := held_act_paid (r := r) hlives hsettled htouch
      rw [if_pos ⟨hfirst,by omega⟩,max_eq_right hfirst]
      linarith
    · have hheld := held_act_le (r := r) hlives hsettled htouch (le_max_right first e.reading)
      rw [if_neg fun hin => hfirst hin.1]
      linarith
  · rw [if_neg hspan,if_neg hspan,if_neg (by omega),zero_add]

/-- The readings of the events on a key never go back. -/
def Forward (k : κ) (events : List (Event κ)) : Prop :=
  (events.filter (Event.touches k)).Pairwise fun e f => e.reading ≤ f.reading

theorem total_le_reserve (hlives : Lives quota ttl) {first last now : ℕ}
    (hsettled : Settled ttl now shelf k) (hforward : Forward k events)
    (hnow : ∀ e ∈ events, e.touches k = true → now ≤ e.reading) :
    total r ttl k first last shelf events ≤ reserve first last now shelf k := by
  induction events generalizing shelf now with
  | nil =>
    have hempty : reserve first last (max now (last+1)) shelf k ≤ reserve first last now shelf k :=
      reserve_later (le_max_left _ _)
    rw [reserve,if_neg (by omega)] at hempty
    exact hempty
  | cons e es ih =>
    unfold total
    by_cases htouch : e.touches k = true
    · unfold Forward at hforward
      rw [List.filter_cons_of_pos htouch] at hforward
      have hnext := List.pairwise_cons.mp hforward
      have hstart := hnow e List.mem_cons_self htouch
      have hrest := ih (settled_act (r := r) hsettled htouch hstart) hnext.2
        fun f hf hft => hnext.1 f (List.mem_filter.mpr ⟨hf,hft⟩)
      calc
        _ ≤ _+reserve first last e.reading (act r ttl shelf e) k := add_le_add_right hrest _
        _ ≤ reserve first last e.reading shelf k := reserve_act hlives hsettled htouch
        _ ≤ _ := reserve_later hstart
    · have hsame : act r ttl shelf e k = shelf k := act_untouched (Bool.eq_false_iff.mpr htouch)
      have hpaid : paid r k shelf e = none := by
        cases e with
        | serve call => exact if_neg fun h => htouch (decide_eq_true h.1)
        | expire reading key => rfl
      have hstill := settled_untouched (r := r) hsettled (Bool.eq_false_iff.mpr htouch)
      unfold Forward at hforward
      rw [List.filter_cons_of_neg htouch] at hforward
      have hrest := ih hstill hforward fun f hf => hnow f (List.mem_cons_of_mem e hf)
      have hreserve : reserve first last now (act r ttl shelf e) k =
          reserve first last now shelf k := by
        unfold reserve held
        rw [hsame]
      rw [hpaid,Option.getD_none,NNRat.coe_zero,ite_self,zero_add]
      rwa [hreserve] at hrest

omit [DecidableEq κ] in
theorem settled_empty : Settled ttl 0 (fun _ => none : Shelf quota) k := by
  constructor
  · intro kept hkept
    cases hkept
  · intro kept hkept
    cases hkept

/-- A key pays in a span at most its capacity and what comes in during the span. -/
theorem total_le (hlives : Lives quota ttl) {first last : ℕ} (hforward : Forward k events)
    (h : first ≤ last) :
    total r ttl k first last (fun _ => none : Shelf quota) events ≤
      (quota k).capacity+(last-first : ℕ)*(quota k).rate :=
  (total_le_reserve hlives settled_empty hforward fun _ _ _ => Nat.zero_le _).trans (reserve_le h)

theorem settled_run (hsettled : Settled ttl now shelf k) (hforward : Forward k events)
    (hnow : ∀ e ∈ events, e.touches k = true → now ≤ e.reading) :
    ∃ later, Settled ttl later (run r ttl shelf events) k := by
  induction events generalizing shelf now with
  | nil => exact ⟨now,hsettled⟩
  | cons e es ih =>
    unfold Forward at hforward
    by_cases htouch : e.touches k = true
    · rw [List.filter_cons_of_pos htouch] at hforward
      have hnext := List.pairwise_cons.mp hforward
      exact ih (settled_act (r := r) hsettled htouch (hnow e List.mem_cons_self htouch)) hnext.2
        fun f hf hft => hnext.1 f (List.mem_filter.mpr ⟨hf,hft⟩)
    · rw [List.filter_cons_of_neg htouch] at hforward
      exact ih (settled_untouched hsettled (Bool.eq_false_iff.mpr htouch)) hforward
        fun f hf => hnow f (List.mem_cons_of_mem e hf)

/-- A watermark is never ahead of all readings. -/
theorem behind_run {bound : ℕ} (h : ∀ kept, shelf k = some kept → kept.bucket.since ≤ bound)
    (hevents : ∀ e ∈ events, e.touches k = true → e.reading ≤ bound) :
    ∀ kept, run r ttl shelf events k = some kept → kept.bucket.since ≤ bound := by
  induction events generalizing shelf with
  | nil => exact h
  | cons e es ih =>
    have hrest : ∀ f ∈ es, f.touches k = true → f.reading ≤ bound := fun f hf =>
      hevents f (List.mem_cons_of_mem e hf)
    apply ih _ hrest
    intro kept hkept
    by_cases htouch : e.touches k = true
    · have hreading := hevents e List.mem_cons_self htouch
      cases e with
      | serve call =>
        have hk : k ∈ call.keys := of_decide_eq_true htouch
        have hcall : call.reading ≤ bound := hreading
        rw [act_served hk] at hkept
        cases hkept
        rw [settle_since]
        exact max_le hcall (found_since h hcall)
      | expire reading key =>
        have hkey : k = key := of_decide_eq_true htouch
        subst hkey
        rw [act_expired] at hkept
        exact h kept (Option.filter_eq_some_iff.mp hkept).1
    · rw [act_untouched (Bool.eq_false_iff.mpr htouch)] at hkept
      exact h kept hkept

/-- From `now` on the two shelves are not told apart. -/
structure Agrees (now : ℕ) (shelf lasting : Shelf quota) : Prop where
  refills : ∀ k t, now ≤ t →
    (found .expiring shelf t k).refill t = (found .lasting lasting t k).refill t
  behind : ∀ k kept, lasting k = some kept → kept.bucket.since ≤ now

variable {lasting : Shelf quota}

omit [DecidableEq κ] in
theorem agrees_levels {now t : ℕ} (h : Agrees now shelf lasting) (k : κ) (ht : now ≤ t) :
    (found .expiring shelf t k).level t = (found .lasting lasting t k).level t :=
  congrArg Bucket.tokens (h.refills k t ht)

omit [DecidableEq κ] in
theorem agrees_admitted (h : Agrees now shelf lasting) {call : Request κ}
    (ht : now ≤ call.reading) :
    admitted .expiring shelf call = admitted .lasting lasting call := by
  unfold admitted
  simp only [agrees_levels h _ ht]

omit [DecidableEq κ] in
theorem agrees_empty : Agrees 0 (fun _ => none : Shelf quota) fun _ => none := by
  constructor
  · intro k t _
    rfl
  · intro k kept hkept
    cases hkept

theorem agrees_act (hlives : Lives quota ttl) (h : Agrees now shelf lasting)
    (hreading : now ≤ e.reading) :
    Agrees e.reading (act .expiring ttl shelf e) (act .lasting ttl lasting e) := by
  cases e with
  | serve call =>
    have hcall : now ≤ call.reading := hreading
    have hadmitted := agrees_admitted h hcall
    have hsettle : ∀ k, settle (admitted .expiring shelf call) call
        (found .expiring shelf call.reading k) = settle (admitted .lasting lasting call) call
          (found .lasting lasting call.reading k) := by
      intro k
      rw [hadmitted]
      unfold settle
      rw [h.refills k call.reading hcall]
    have hsince : ∀ k, (settle (admitted .lasting lasting call) call
        (found .lasting lasting call.reading k)).since = call.reading := by
      intro k
      have hbehind := found_since (r := .lasting)
        (fun kept hkept => (h.behind k kept hkept).trans hcall) le_rfl
      rw [settle_since,max_eq_left hbehind]
    constructor
    · intro k t ht
      have ht' : call.reading ≤ t := ht
      by_cases hk : k ∈ call.keys
      · have hleft : act .expiring ttl shelf (.serve call) k = _ := act_served hk
        have hright : act .lasting ttl lasting (.serve call) k = _ := act_served hk
        rw [hsettle] at hleft
        have hlast : found .lasting (act .expiring ttl shelf (.serve call)) t k = _ :=
          found_kept hleft rfl
        rw [found_kept (r := .lasting) hright rfl,← hlast]
        apply found_refill hlives
        intro kept hkept
        rw [hleft] at hkept
        cases hkept
        exact (congrArg (·+ttl k) (hsince k)).le
      · rw [found,found,act_unserved hk,act_unserved hk,← found,← found]
        exact h.refills k t (hcall.trans ht')
    · intro k kept hkept
      by_cases hk : k ∈ call.keys
      · rw [act_served hk] at hkept
        cases hkept
        exact (hsince k).le
      · rw [act_unserved hk] at hkept
        exact (h.behind k kept hkept).trans hcall
  | expire reading key =>
    have hsame : act .lasting ttl lasting (.expire reading key) = lasting := by
      ext k : 1
      show (if k = key then
        (lasting k).filter fun kept => !Retention.lasting.gone kept.expireAt reading
          else lasting k) = lasting k
      split
      · cases lasting k <;> rfl
      · rfl
    have hfound : ∀ k t, reading ≤ t →
        found .expiring (act .expiring ttl shelf (.expire reading key)) t k =
          found .expiring shelf t k := by
      intro k t ht
      by_cases hkey : k = key
      · subst hkey
        cases hk : shelf k with
        | none => rw [found_none hk,found_none (act_absent hk)]
        | some kept =>
          by_cases hgone : Retention.expiring.gone kept.expireAt reading = true
          · have hlate : Retention.expiring.gone kept.expireAt t = true :=
              decide_eq_true ((of_decide_eq_true hgone : kept.expireAt < reading).trans_le ht)
            rw [found_gone hk hlate,found_none (act_dropped hk hgone)]
          · have hlive : act .expiring ttl shelf (.expire reading k) k = some kept :=
              act_live hk (Bool.eq_false_iff.mpr hgone)
            rw [found,found,hk,hlive]
      · have hkeep : act .expiring ttl shelf (.expire reading key) k = shelf k := if_neg hkey
        rw [found,found,hkeep]
    rw [hsame]
    constructor
    · intro k t ht
      rw [hfound k t ht]
      exact h.refills k t (le_trans hreading ht)
    · intro k kept hkept
      exact (h.behind k kept hkept).trans hreading

end Throttle
