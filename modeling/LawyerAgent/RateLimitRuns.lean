import LawyerAgent.RateLimitScript

/-!
# Runs of the rate limiter

Histories of requests and dropped keys, with whatever readings of the clock.
-/

set_option autoImplicit false

namespace LawyerAgent.RateLimitRuns
open RateLimits RateLimitScript
open Outcomes (mapM_ok bind_ok)
open Throttle (Shelf Retention Forward Untapped Agrees found admitted act paid total)

variable {L : Library} {limiter : RateLimiter} {r : Retention} {shelf : Shelf quota}

variable {key : Key}

theorem keyOf_policy {rule : RateLimitRule} {dimensions : Dimensions}
    {policy : {policy // policy ∈ policies rule}}
    (h : keyOf L limiter rule dimensions policy = .ok key) : policy.val = key.policy := by
  obtain ⟨canonical,-,hkey⟩ := bind_ok.mp h
  cases hkey
  rfl

theorem keysOf_policies {rule : RateLimitRule} {dimensions : Dimensions} {keys : List Key}
    (h : keysOf L limiter rule dimensions = .ok keys) : keys.map Key.policy = policies rule := by
  unfold keysOf at h
  dsimp only at h
  split at h
  · cases h
  · have hpairs := (mapM_ok.mp h).imp fun _ _ hkey => keyOf_policy hkey
    have hmapped : List.Forall₂ (fun policy policy' : BucketPolicy => policy = policy')
        ((policies rule).attach.map Subtype.val) (keys.map Key.policy) :=
      List.forall₂_map_left_iff.mpr (List.forall₂_map_right_iff.mpr hpairs)
    rw [List.forall₂_eq_eq_eq] at hmapped
    rw [← hmapped,List.attach_map_subtype_val]

section
variable {rule : RateLimitRule} {dimensions : Dimensions} {keys : List Key}

theorem consume_stored (hkeys : keysOf L limiter rule dimensions = .ok keys) (now : ℕ) :
    consume L limiter r now rule dimensions (stored shelf) =
      (decision rule (rawOf keys fun key => (found r shelf now key).level now),
        stored (act r ttl shelf (.serve (request now keys)))) := by
  rw [consume,hkeys]
  dsimp only
  rw [lua_stored]

variable (r shelf) in
theorem answer (hkeys : keysOf L limiter rule dimensions = .ok keys) (now : ℕ) :
    ∃ d, decision rule (rawOf keys fun key => (found r shelf now key).level now) = .ok d ∧
      d.allowed = admitted r shelf (request now keys) ∧
      (d.allowed = false → ∀ key ∈ keys, 1-(found r shelf now key).level now ≤
        ((d.retryAfterSeconds*1000 : ℕ) : ℚ)*(quota key).rate) := by
  have hpolicies := keysOf_policies hkeys
  by_cases hadmitted : admitted r shelf (request now keys) = true
  · have henough : ∀ key ∈ keys, 1 ≤ (found r shelf now key).level now :=
      Throttle.admitted_iff.mp hadmitted
    obtain ⟨remaining,hraw,hlow,hhigh⟩ :=
      rawOf_allowed hpolicies (fun key => (found r shelf now key).level_le now) henough
    obtain ⟨d,hd,hallowed⟩ := decision_allowed hlow hhigh
    rw [hraw,hadmitted]
    exact ⟨d,hd,hallowed,fun hdenied => absurd hallowed (by simp [hdenied])⟩
  · have hshort : ∃ key ∈ keys, (found r shelf now key).level now < 1 := by
      by_contra hnone
      apply hadmitted
      apply Throttle.admitted_iff.mpr
      intro key hkey
      by_contra hless
      exact hnone ⟨key,hkey,not_le.mp hless⟩
    obtain ⟨short,hmem,hless⟩ := hshort
    obtain ⟨retry,hraw,hlow,hhigh,hwait⟩ :=
      rawOf_denied hpolicies (fun key => (found r shelf now key).level_nonneg now) hmem hless
    obtain ⟨d,hd,hdenied,hretry⟩ := decision_denied hlow hhigh
    rw [hraw]
    refine ⟨d,hd,hdenied.trans (Bool.eq_false_iff.mpr hadmitted).symm,?_⟩
    intro _ key hkey
    have hcast : ((retry*1000 : ℤ) : ℚ) = ((d.retryAfterSeconds*1000 : ℕ) : ℚ) := by
      rw [← hretry]
      push_cast
      rfl
    rw [← hcast]
    exact hwait key hkey

end

/-- What an event of the limiter is on the shelf; a call that is refused for its
dimensions does not reach Redis. -/
def call (L : Library) (limiter : RateLimiter) : Event → Option (Throttle.Event Key)
  | .request reading rule dimensions =>
    (keysOf L limiter rule dimensions).toOption.map fun keys => .serve (request reading keys)
  | .expire reading key => some (.expire reading key)

def calls (L : Library) (limiter : RateLimiter) (log : List Event) : List (Throttle.Event Key) :=
  log.filterMap (call L limiter)

/-- What a step records and writes, on the shelf. -/
inductive Steps (L : Library) (limiter : RateLimiter) (r : Retention) (shelf : Shelf quota) :
    Event → Prop
  | refused {e : Event} {reading : ℕ} {failure : Failure} (hcall : call L limiter e = none)
      (h : step L limiter r (stored shelf) e = ([⟨reading,[],.error failure⟩],stored shelf)) :
      Steps L limiter r shelf e
  | served {e : Event} {reading : ℕ} {keys : List Key} {d : RateLimitDecision}
      (hcall : call L limiter e = some (.serve (request reading keys)))
      (hallowed : d.allowed = admitted r shelf (request reading keys))
      (h : step L limiter r (stored shelf) e =
        ([⟨reading,keys,.ok d⟩],stored (act r ttl shelf (.serve (request reading keys))))) :
      Steps L limiter r shelf e
  | dropped {e : Event} {reading : ℕ} {key : Key}
      (hcall : call L limiter e = some (.expire reading key))
      (h : step L limiter r (stored shelf) e =
        ([],stored (act r ttl shelf (.expire reading key)))) :
      Steps L limiter r shelf e

theorem expire_stored (reading : ℕ) (key : Key) :
    step L limiter r (stored shelf) (.expire reading key) =
      ([],stored (act r ttl shelf (.expire reading key))) := by
  have hwritten : (fun k => if k = key then
      (stored shelf k).filter fun hash => !r.gone hash.expireAt reading else stored shelf k) =
        stored (act r ttl shelf (.expire reading key)) := by
    ext k : 1
    by_cases hkey : k = key
    · subst hkey
      rw [if_pos rfl,stored,stored,Throttle.act_expired,Option.filter_map]
      rfl
    · have hkeep : act r ttl shelf (.expire reading key) k = shelf k := if_neg hkey
      rw [if_neg hkey,stored,stored,hkeep]
  exact congrArg (Prod.mk []) hwritten

variable (L limiter r shelf) in
theorem steps (e : Event) : Steps L limiter r shelf e := by
  cases e with
  | request reading rule dimensions =>
    cases hkeys : keysOf L limiter rule dimensions with
    | error failure =>
      have hcall : call L limiter (.request reading rule dimensions) = none := by
        simp only [call,hkeys]
        rfl
      have hstep : step L limiter r (stored shelf) (.request reading rule dimensions) =
          ([⟨reading,[],.error failure⟩],stored shelf) := by
        simp only [step,consume,hkeys]
        rfl
      exact .refused hcall hstep
    | ok keys =>
      obtain ⟨d,hd,hallowed,-⟩ := answer r shelf hkeys reading
      have hcall : call L limiter (.request reading rule dimensions) =
          some (.serve (request reading keys)) := by
        simp only [call,hkeys]
        rfl
      have hstep : step L limiter r (stored shelf) (.request reading rule dimensions) =
          ([⟨reading,keys,.ok d⟩],stored (act r ttl shelf (.serve (request reading keys)))) := by
        simp only [step,consume_stored hkeys,hkeys,hd]
        rfl
      exact .served hcall hallowed hstep
  | expire reading key => exact .dropped rfl (expire_stored reading key)

theorem calls_none {e : Event} (h : call L limiter e = none) (es : List Event) :
    calls L limiter (e::es) = calls L limiter es := List.filterMap_cons_none h

theorem calls_some {e : Event} {t : Throttle.Event Key} (h : call L limiter e = some t)
    (es : List Event) : calls L limiter (e::es) = t::calls L limiter es :=
  List.filterMap_cons_some h

theorem run_stored (log : List Event) : (run L limiter r (stored shelf) log).2 =
    stored (Throttle.run r ttl shelf (calls L limiter log)) := by
  induction log generalizing shelf with
  | nil => rfl
  | cons e es ih =>
    cases steps L limiter r shelf e with
    | refused hcall h =>
      rw [calls_none hcall,run,h]
      exact ih
    | served hcall hallowed h =>
      rw [calls_some hcall,run,h]
      exact ih
    | dropped hcall h =>
      rw [calls_some hcall,run,h]
      exact ih

variable {reading : ℕ}

theorem takes_paid {keys : List Key} {d : RateLimitDecision}
    (hallowed : d.allowed = admitted r shelf (request reading keys)) (key : Key) :
    paid r key shelf (.serve (request reading keys)) =
      if Record.takes key ⟨reading,keys,.ok d⟩ = true then some 1 else none := by
  have htakes : Record.takes key ⟨reading,keys,.ok d⟩ = true ↔
      key ∈ keys ∧ admitted r shelf (request reading keys) = true := by
    rw [← hallowed]
    show (d.allowed && decide (key ∈ keys)) = true ↔ _
    rw [Bool.and_eq_true,decide_eq_true_iff,and_comm]
  by_cases h : key ∈ keys ∧ admitted r shelf (request reading keys) = true
  · rw [if_pos (htakes.mpr h)]
    exact if_pos h
  · rw [if_neg (mt htakes.mp h)]
    exact if_neg h

theorem granted_total (key : Key) (first last : ℕ) (log : List Event) :
    (granted key first last (run L limiter r (stored shelf) log).1 : ℚ) =
      total r ttl key first last shelf (calls L limiter log) := by
  induction log generalizing shelf with
  | nil => rfl
  | cons e es ih =>
    have happend : ∀ now later : List Record,
        (granted key first last (now++later) : ℚ) = granted key first last now+
          granted key first last later := by
      intro now later
      unfold granted
      rw [List.countP_append,Nat.cast_add]
    cases steps L limiter r shelf e with
    | refused hcall h =>
      rw [calls_none hcall,run,h]
      dsimp only
      rw [happend,ih]
      exact zero_add _
    | served hcall hallowed h =>
      rename_i reading keys d
      rw [calls_some hcall,run,h]
      dsimp only
      rw [happend,ih,total,takes_paid hallowed]
      congr 1
      show ((List.countP _ [_] : ℕ) : ℚ) = if first ≤ reading ∧ reading ≤ last then _ else _
      rw [List.countP_singleton]
      by_cases htakes : Record.takes key ⟨reading,keys,.ok d⟩ = true
      · by_cases hspan : first ≤ reading ∧ reading ≤ last
        · simp [htakes,hspan]
        · simp only [htakes,if_neg hspan]
          rw [if_neg]
          · exact Nat.cast_zero
          · simpa using hspan
      · simp [htakes]
    | dropped hcall h =>
      rw [calls_some hcall,run,h]
      dsimp only
      rw [happend,ih,total]
      congr 1
      show (0 : ℚ) = if _ then ((0 : ℚ≥0) : ℚ) else 0
      rw [NNRat.coe_zero,ite_self]

theorem untapped {log : List Event}
    (h : ∀ record ∈ (run L limiter r (stored shelf) log).1, record.takes key = false) :
    Untapped r ttl key shelf (calls L limiter log) := by
  induction log generalizing shelf with
  | nil => exact trivial
  | cons e es ih =>
    cases steps L limiter r shelf e with
    | refused hcall hstep =>
      rw [run,hstep] at h
      rw [calls_none hcall]
      exact ih fun record hrecord => h record (List.mem_append_right _ hrecord)
    | served hcall hallowed hstep =>
      rw [run,hstep] at h
      rw [calls_some hcall]
      constructor
      · rw [takes_paid hallowed,h _ (List.mem_append_left _ List.mem_cons_self)]
        rfl
      · exact ih fun record hrecord => h record (List.mem_append_right _ hrecord)
    | dropped hcall hstep =>
      rw [run,hstep] at h
      rw [calls_some hcall]
      exact ⟨rfl,ih fun record hrecord => h record (List.mem_append_right _ hrecord)⟩

/-- A limiter whose keys last gives the same answers while the clock does not go back. -/
theorem run_lasting {now : ℕ} {lasting : Shelf quota} {log : List Event}
    (h : Agrees now shelf lasting)
    (hforward : (calls L limiter log).Pairwise fun e f => e.reading ≤ f.reading)
    (hnow : ∀ e ∈ calls L limiter log, now ≤ e.reading) :
    (run L limiter .expiring (stored shelf) log).1 =
      (run L limiter .lasting (stored lasting) log).1 := by
  induction log generalizing now shelf lasting with
  | nil => rfl
  | cons e es ih =>
    cases e with
    | request reading rule dimensions =>
      cases hkeys : keysOf L limiter rule dimensions with
      | error failure =>
        have hcall : call L limiter (.request reading rule dimensions) = none := by
          simp only [call,hkeys]
          rfl
        rw [calls_none hcall] at hforward hnow
        simp only [run,step,consume,hkeys]
        rw [ih h hforward hnow]
      | ok keys =>
        have hcall : call L limiter (.request reading rule dimensions) =
            some (.serve (request reading keys)) := by
          simp only [call,hkeys]
          rfl
        rw [calls_some hcall] at hforward hnow
        have hreading : now ≤ reading := hnow _ List.mem_cons_self
        have hnext := List.pairwise_cons.mp hforward
        have hafter := Throttle.agrees_act lives h (e := .serve (request reading keys)) hreading
        simp only [run,step,consume_stored hkeys]
        rw [ih hafter hnext.2 hnext.1]
        simp only [Throttle.agrees_levels h _ hreading]
    | expire reading key =>
      have hcall : call L limiter (.expire reading key) = some (.expire reading key) := rfl
      rw [calls_some hcall] at hforward hnow
      have hreading : now ≤ reading := hnow _ List.mem_cons_self
      have hnext := List.pairwise_cons.mp hforward
      have hafter := Throttle.agrees_act lives h (e := .expire reading key) hreading
      simp only [run,expire_stored]
      rw [ih hafter hnext.2 hnext.1]

def reached (L : Library) (limiter : RateLimiter) (log : List Event) : Redis :=
  (run L limiter .expiring start log).2

def levelAt (redis : Redis) (nowMs : ℕ) (key : Key) : ℚ :=
  match plan .expiring redis nowMs key.argument with
  | .ok p => p.available
  | .error _ => 0

def watermark (redis : Redis) (key : Key) : ℚ :=
  match redis key with
  | some ⟨_,.number updatedMs,_⟩ => updatedMs
  | _ => 0

/-- After any history, whatever the clock read. `lasting` and `expired` compare
with a store whose keys never expire. -/
structure Throttled (L : Library) (limiter : RateLimiter) (log : List Event) : Prop where
  bounded : ∀ key hash, reached L limiter log key = some hash →
    ∃ tokens, hash.tokens = .number tokens ∧ 0 ≤ tokens ∧ tokens ≤ key.policy.capacity
  granted : ∀ key first span, Forward key (calls L limiter log) →
    (granted key first (first+span) (run L limiter .expiring start log).1 : ℚ) ≤
      key.policy.capacity+
        span*key.policy.capacity/(key.policy.windowSeconds*1000 : ℕ)
  denied : ∀ reading rule dimensions d after,
    consume L limiter .expiring reading rule dimensions (reached L limiter log) = (.ok d,after) →
    d.allowed = false → ∀ key,
      levelAt after reading key = levelAt (reached L limiter log) reading key ∧
      (after key = reached L limiter log key ∨ ∃ hash, after key = some hash ∧
        hash.tokens = .number (levelAt (reached L limiter log) reading key))
  waited : ∀ reading rule dimensions keys d after between later,
    keysOf L limiter rule dimensions = .ok keys →
    consume L limiter .expiring reading rule dimensions (reached L limiter log) = (.ok d,after) →
    d.allowed = false →
    (∀ key ∈ keys, ∀ record ∈ (run L limiter .expiring after between).1,
      record.takes key = false) →
    (∀ key ∈ keys, max (reading : ℚ) (watermark (reached L limiter log) key)+
      d.retryAfterSeconds*1000 ≤ (later : ℕ)) →
    ∃ d', (consume L limiter .expiring later rule dimensions
      (run L limiter .expiring after between).2).1 = .ok d' ∧ d'.allowed = true
  behind : ∀ key (bound : ℕ), (∀ e ∈ calls L limiter log, e.touches key = true →
    e.reading ≤ bound) → watermark (reached L limiter log) key ≤ bound
  expired : ∀ reading rule dimensions keys, keysOf L limiter rule dimensions = .ok keys →
    (∀ key ∈ keys, Forward key (calls L limiter log)) →
    consume L limiter .expiring reading rule dimensions (reached L limiter log) =
      consume L limiter .lasting reading rule dimensions (reached L limiter log)
  lasting : ((calls L limiter log).Pairwise fun e f => e.reading ≤ f.reading) →
    (run L limiter .expiring start log).1 = (run L limiter .lasting start log).1

theorem stored_empty : stored (fun _ => none) = start := rfl

theorem levelAt_stored (now : ℕ) (key : Key) :
    levelAt (stored shelf) now key = (found .expiring shelf now key).level now := by
  rw [levelAt,plan_stored]
  rfl

theorem watermark_stored {kept : Throttle.Kept (quota key)} (h : shelf key = some kept) :
    watermark (stored shelf) key = kept.bucket.since := by
  rw [watermark,stored,h]
  rfl

theorem found_watermark (now : ℕ) (key : Key) :
    ((found r shelf now key).since : ℚ) ≤ max (now : ℚ) (watermark (stored shelf) key) := by
  cases hk : shelf key with
  | none =>
    rw [Throttle.found_none hk]
    exact le_max_left _ _
  | some kept =>
    by_cases hgone : r.gone kept.expireAt now = true
    · rw [Throttle.found_gone hk hgone]
      exact le_max_left _ _
    · rw [Throttle.found_kept hk (Bool.eq_false_iff.mpr hgone),watermark_stored hk]
      exact le_max_right _ _

theorem stored_bounded {hash : Hash} (h : stored shelf key = some hash) :
    ∃ tokens, hash.tokens = .number tokens ∧ 0 ≤ tokens ∧ tokens ≤ key.policy.capacity := by
  obtain ⟨kept,-,rfl⟩ := Option.map_eq_some_iff.mp h
  exact ⟨_,rfl,kept.bucket.nonneg,kept.bucket.bounded⟩

section
variable {rule : RateLimitRule} {dimensions : Dimensions} {d : RateLimitDecision} {after : Redis}

theorem consume_decided
    (h : consume L limiter r reading rule dimensions (stored shelf) = (.ok d,after)) :
    ∃ keys, keysOf L limiter rule dimensions = .ok keys ∧
      d.allowed = admitted r shelf (request reading keys) ∧
      after = stored (act r ttl shelf (.serve (request reading keys))) ∧
      (d.allowed = false → ∀ key ∈ keys, 1-(found r shelf reading key).level reading ≤
        ((d.retryAfterSeconds*1000 : ℕ) : ℚ)*(quota key).rate) := by
  cases hkeys : keysOf L limiter rule dimensions with
  | error failure =>
    rw [consume,hkeys] at h
    cases h
  | ok keys =>
    obtain ⟨d',hd',hallowed,hwait⟩ := answer r shelf hkeys reading
    rw [consume_stored hkeys,hd'] at h
    cases h
    exact ⟨keys,rfl,hallowed,rfl,hwait⟩

theorem stored_denied
    (h : consume L limiter .expiring reading rule dimensions (stored shelf) = (.ok d,after))
    (hdenied : d.allowed = false) (key : Key) :
    levelAt after reading key = levelAt (stored shelf) reading key ∧
      (after key = stored shelf key ∨ ∃ hash, after key = some hash ∧
        hash.tokens = .number (levelAt (stored shelf) reading key)) := by
  obtain ⟨keys,-,hallowed,rfl,-⟩ := consume_decided h
  have hnot : admitted .expiring shelf (request reading keys) = false := hallowed ▸ hdenied
  rw [levelAt_stored,levelAt_stored]
  constructor
  · exact Throttle.found_denied hnot key
  · by_cases hkey : key ∈ keys
    · right
      have hserved : key ∈ (request reading keys).keys := hkey
      rw [stored,Throttle.act_served hserved,hnot]
      exact ⟨_,rfl,rfl⟩
    · left
      rw [stored,stored,Throttle.act_unserved hkey]

theorem stored_waited {reading later : ℕ} {keys : List Key} {between : List Event}
    (hkeys : keysOf L limiter rule dimensions = .ok keys)
    (h : consume L limiter .expiring reading rule dimensions (stored shelf) = (.ok d,after))
    (hdenied : d.allowed = false)
    (hbetween : ∀ key ∈ keys, ∀ record ∈ (run L limiter .expiring after between).1,
      record.takes key = false)
    (hlater : ∀ key ∈ keys, max (reading : ℚ) (watermark (stored shelf) key)+
      d.retryAfterSeconds*1000 ≤ (later : ℕ)) :
    ∃ d', (consume L limiter .expiring later rule dimensions
      (run L limiter .expiring after between).2).1 = .ok d' ∧ d'.allowed = true := by
  obtain ⟨keys',hkeys',hallowed,rfl,hwait⟩ := consume_decided h
  have hsame : keys = keys' := Outcomes.ok_inj.mp (hkeys.symm.trans hkeys')
  subst hsame
  have hnot : admitted .expiring shelf (request reading keys) = false := hallowed ▸ hdenied
  rw [run_stored,consume_stored hkeys]
  obtain ⟨d',hd',hallowed',-⟩ := answer .expiring (Throttle.run .expiring ttl
    (act .expiring ttl shelf (.serve (request reading keys))) (calls L limiter between)) hkeys later
  refine ⟨d',hd',hallowed'.trans ?_⟩
  have hcost : ∀ key ∈ keys, (((1 : ℚ≥0) : ℚ)) ≤ (quota key).capacity := fun key _ =>
    one_le_capacity key
  have hmissing : ∀ key ∈ keys, ((1 : ℚ≥0) : ℚ)-(found .expiring shelf reading key).level reading ≤
      ((d.retryAfterSeconds*1000 : ℕ) : ℚ)*(quota key).rate := hwait hdenied
  have hbefore : ∀ key ∈ keys, max reading (found .expiring shelf reading key).since+
      d.retryAfterSeconds*1000 ≤ later := by
    intro key hkey
    have hbound := hlater key hkey
    have hfound : ((found .expiring shelf reading key).since : ℚ) ≤ _ := found_watermark reading key
    have hmax := max_le (le_max_left (reading : ℚ) (watermark (stored shelf) key)) hfound
    have hcast : ((max reading (found .expiring shelf reading key).since+
        d.retryAfterSeconds*1000 : ℕ) : ℚ) ≤ later := by
      push_cast
      linarith
    exact_mod_cast hcast
  exact Throttle.admitted_waited hnot hcost hmissing hbefore fun key hkey =>
    untapped (hbetween key hkey)

theorem stored_expired {keys : List Key} (hkeys : keysOf L limiter rule dimensions = .ok keys)
    (hlasts : ∀ key ∈ keys, ∀ kept, shelf key = some kept → kept.bucket.since+ttl key ≤
      kept.expireAt) :
    consume L limiter .expiring reading rule dimensions (stored shelf) =
      consume L limiter .lasting reading rule dimensions (stored shelf) := by
  have hrefill : ∀ key ∈ keys, (found .expiring shelf reading key).refill reading =
      (found .lasting shelf reading key).refill reading := fun key hkey =>
    Throttle.found_refill lives reading (hlasts key hkey)
  have hlevel : ∀ key ∈ keys, (found .expiring shelf reading key).level reading =
      (found .lasting shelf reading key).level reading := fun key hkey =>
    congrArg Throttle.Bucket.tokens (hrefill key hkey)
  have hadmitted : admitted .expiring shelf (request reading keys) =
      admitted .lasting shelf (request reading keys) := by
    apply Bool.eq_iff_iff.mpr
    rw [Throttle.admitted_iff,Throttle.admitted_iff]
    apply forall₂_congr
    intro key hkey
    rw [show (request reading keys).reading = reading from rfl,hlevel key hkey]
  have hraw : rawOf keys (fun key => (found .expiring shelf reading key).level reading) =
      rawOf keys fun key => (found .lasting shelf reading key).level reading :=
    rawOf_congr hlevel
  have hact : act .expiring ttl shelf (.serve (request reading keys)) =
      act .lasting ttl shelf (.serve (request reading keys)) := by
    ext key : 1
    by_cases hkey : key ∈ keys
    · have hserved : key ∈ (request reading keys).keys := hkey
      rw [Throttle.act_served hserved,Throttle.act_served hserved,hadmitted]
      unfold Throttle.settle
      rw [show (request reading keys).reading = reading from rfl,hrefill key hkey]
    · rw [Throttle.act_unserved hkey,Throttle.act_unserved hkey]
  rw [consume_stored hkeys,consume_stored hkeys,hraw,hact]

end

/-- Buckets stay within their capacities and denied requests take nothing, whatever
the clock reads. A wait counts from the watermark. Over readings that do not go
back a bucket grants its capacity and its refill, and an expired key is a full
bucket. -/
theorem requests_throttled (L : Library) (limiter : RateLimiter) (log : List Event) :
    Throttled L limiter log := by
  have hreached : reached L limiter log =
      stored (Throttle.run .expiring ttl (fun _ => none) (calls L limiter log)) := by
    rw [reached,← stored_empty]
    exact run_stored log
  constructor
  case bounded =>
    intro key hash h
    rw [hreached] at h
    exact stored_bounded h
  case granted =>
    intro key first span hforward
    rw [← stored_empty,granted_total]
    apply (Throttle.total_le lives hforward (Nat.le_add_right first span)).trans
    rw [Nat.add_sub_cancel_left,mul_div_assoc]
    rfl
  case denied =>
    intro reading rule dimensions d after h hdenied
    rw [hreached] at h ⊢
    exact stored_denied h hdenied
  case waited =>
    intro reading rule dimensions keys d after between later hkeys h hdenied hbetween hlater
    rw [hreached] at h hlater
    exact stored_waited hkeys h hdenied hbetween hlater
  case behind =>
    intro key bound hbound
    rw [hreached]
    have hbehind : ∀ kept, Throttle.run .expiring ttl (fun _ => none : Shelf quota)
        (calls L limiter log) key = some kept → kept.bucket.since ≤ bound :=
      Throttle.behind_run (fun kept hkept => by cases hkept) hbound
    cases hk : Throttle.run .expiring ttl (fun _ => none) (calls L limiter log) key with
    | none =>
      rw [watermark,stored,hk]
      exact Nat.cast_nonneg bound
    | some kept =>
      rw [watermark_stored hk]
      exact Nat.cast_le.mpr (hbehind kept hk)
  case expired =>
    intro reading rule dimensions keys hkeys hforward
    rw [hreached]
    apply stored_expired hkeys
    intro key hkey
    obtain ⟨later,hsettled⟩ := Throttle.settled_run (r := .expiring) Throttle.settled_empty
      (hforward key hkey) fun _ _ _ => Nat.zero_le _
    exact hsettled.lasts
  case lasting =>
    intro hforward
    apply run_lasting (Throttle.agrees_empty) hforward
    intro e _
    exact Nat.zero_le _

def sampleLibrary : Library where
  hmac _ message := BitVec.ofNat 256 (message.foldl (fun n byte => 256*n+byte.toNat) 0)
  nfkc value := value
  casefold value := value
  lower value := value
  parsePhone _ := none
  validateEmail _ := none
  idna domain := some domain

def sampleLimiter : RateLimiter := ⟨List.replicate 32 0x72,List.length_replicate⟩

def sampleSession : Dimensions := [("session",.uuid 0x01990f000000700080000000000005aa)]

def sampleRequests (readings : List ℕ) : List Event :=
  readings.map fun reading => .request reading .reauth sampleSession

def sampleAnswers (r : Retention) (readings : List ℕ) : List (Option (Bool × ℕ)) :=
  (run sampleLibrary sampleLimiter r start (sampleRequests readings)).1.map fun record =>
    record.answer.toOption.map fun d => (d.allowed,d.retryAfterSeconds)

/-- Six requests are allowed at the reading 0 where the capacity is 5; a caller that
waited its 180 seconds is denied again; and a bucket whose key expired too early
allows what the bucket itself would deny. -/
theorem clock_back_sample :
    ((keysOf sampleLibrary sampleLimiter .reauth sampleSession).toOption.map fun keys =>
      keys.map fun key => (key.policy.capacity,granted key 0 0 (run sampleLibrary sampleLimiter
        .expiring start (sampleRequests [0,0,0,0,0,900000,0])).1)) = some [(5,6)] ∧
    (sampleAnswers .expiring (List.replicate 5 1000000++[0,180000])).drop 5 =
      [some (false,180),some (false,180)] ∧
    (sampleAnswers .expiring (List.replicate 5 1000000++[0,900001])).drop 5 =
      [some (false,180),some (true,0)] ∧
    (sampleAnswers .lasting (List.replicate 5 1000000++[0,900001])).drop 5 =
      [some (false,180),some (false,180)] := by
  decide +kernel

end LawyerAgent.RateLimitRuns
