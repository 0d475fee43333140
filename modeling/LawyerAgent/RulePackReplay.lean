import LawyerAgent.IdempotencyClients
import LawyerAgent.ReleasePartitions
import LawyerAgent.RulePackAdmin

/-!
# Replayed rules

A completed `add_rule` answers every later call of its member under the same
key. The fingerprint covers the parameters of the rule but not its pack, and
the replay looks the rule up among the enabled rules of the pack of the new
call.
-/

set_option autoImplicit false

namespace LawyerAgent.RulePackReplay
open Relational Common RuleChecks RulePackAdmin
open Idempotency IdempotencyRepository IdempotencyService
open IdempotencyFingerprint
open IdempotencyClients (AnsweredWith complete_answered replaced_completed)
open CanonicalJson (encode dumps)
open JsonReader (sorted dumps_inj)
open ReleaseProvenance (checked_ext object_determined)

/-- Packs and rules are switched but never lost, and a completed record is final. -/
structure Grows (s t : RulePackStore) : Prop where
  packs : ∀ p ∈ s.packs, ∃ active, withActive active p ∈ t.packs
  rules : ∀ r ∈ s.rules, ∃ enabled, withEnabled enabled r ∈ t.rules
  completed : ∀ r ∈ s.records, r.status = .completed → r ∈ t.records

instance : Std.Refl Grows :=
  ⟨fun _ => ⟨fun p h => ⟨p.active,h⟩,fun r h => ⟨r.enabled,h⟩,fun _ h _ => h⟩⟩

instance : IsTrans RulePackStore Grows where
  trans := by
    intro s t u h k
    constructor
    · intro p hp
      obtain ⟨active,hactive⟩ := h.packs p hp
      obtain ⟨last,hlast⟩ := k.packs _ hactive
      exact ⟨last,hlast⟩
    · intro r hr
      obtain ⟨enabled,henabled⟩ := h.rules r hr
      obtain ⟨last,hlast⟩ := k.rules _ henabled
      exact ⟨last,hlast⟩
    · intro r hr hs
      exact k.completed r (h.completed r hr hs) hs

theorem insertPack_grows (p : RulePack) :
    Moves Grows (zoom packsOf (insertRow .databaseError p) : AdminTx Unit) := by
  intro s a t h
  obtain ⟨packs,hpacks,rfl⟩ := zoom_ok.mp h
  have hnew : Inserted p s.packs packs := insertRow_ok.mp hpacks
  exact ⟨fun q hq => ⟨q.active,(inserted_mem hnew).mpr (Or.inr hq)⟩,fun r hr => ⟨r.enabled,hr⟩,
    fun _ hr _ => hr⟩

theorem insertRule_grows (r : RulePackRule) :
    Moves Grows (zoom rulesOf (insertRow .databaseError r) : AdminTx Unit) := by
  intro s a t h
  obtain ⟨rules,hrules,rfl⟩ := zoom_ok.mp h
  have hnew : Inserted r s.rules rules := insertRow_ok.mp hrules
  exact ⟨fun p hp => ⟨p.active,hp⟩,fun x hx => ⟨x.enabled,(inserted_mem hnew).mpr (Or.inr hx)⟩,
    fun _ hr _ => hr⟩

theorem mem_updated {ρ κ : Type} {T : Schema ρ κ} {p : ρ → Bool} {f : ρ → ρ} {t t' : Table T}
    (h : t'.rows = t.rows.map fun r => if p r then f r else r) {r : ρ} (hr : r ∈ t) :
    r ∈ t' ∨ f r ∈ t' := by
  have hmem : (if p r then f r else r) ∈ t' := by
    rw [mem_rows,h]
    exact List.mem_map_of_mem (f := fun r => if p r then f r else r) hr
  by_cases hp : p r = true
  · rw [if_pos hp] at hmem
    exact Or.inr hmem
  · rw [if_neg hp] at hmem
    exact Or.inl hmem

theorem updatePacks_grows (which : RulePack → Bool) (active : Bool) :
    Moves Grows (zoom packsOf (updateRows .databaseError which (withActive active)) :
      AdminTx ℕ) := by
  intro s a t h
  obtain ⟨packs,hpacks,rfl⟩ := zoom_ok.mp h
  have hrows := (updateRows_ok.mp hpacks).2
  refine ⟨fun p hp => ?_,fun r hr => ⟨r.enabled,hr⟩,fun _ hr _ => hr⟩
  rcases mem_updated hrows hp with hsame | hswitched
  · exact ⟨p.active,hsame⟩
  · exact ⟨active,hswitched⟩

theorem updateRules_grows (which : RulePackRule → Bool) (enabled : Bool) :
    Moves Grows (zoom rulesOf (updateRows .databaseError which (withEnabled enabled)) :
      AdminTx ℕ) := by
  intro s a t h
  obtain ⟨rules,hrules,rfl⟩ := zoom_ok.mp h
  have hrows := (updateRows_ok.mp hrules).2
  refine ⟨fun p hp => ⟨p.active,hp⟩,fun r hr => ?_,fun _ hr _ => hr⟩
  rcases mem_updated hrows hr with hsame | hswitched
  · exact ⟨r.enabled,hsame⟩
  · exact ⟨enabled,hswitched⟩

theorem acquire_final {c : NewIdempotencyRecord} {timestamp : Time} {t t' : Records}
    {a : AcquiredIdempotencyRecord} (h : acquire c timestamp t = .ok (a,t')) :
    ∀ x ∈ t, x ∈ t' := by
  obtain ⟨r,-,-,-,-,-,⟨hnew,-⟩ | hsame⟩ := acquire_ok h
  · exact fun x hx => (inserted_mem hnew).mpr (Or.inr hx)
  · rw [hsame]
    exact fun x hx => hx

/-- A reservation keeps the completed records, whatever identifier it draws. -/
theorem reserve_final {q : ReserveRequest} {t t' : Records}
    {reservation : IdempotencyReservation} (h : reserve q t = .ok (reservation,t')) :
    ∀ x ∈ t, x.status = .completed → x ∈ t' := by
  obtain ⟨_,t₁,h₁,hk₁⟩ := bind_ok.mp h
  obtain ⟨-,rfl⟩ := require_ok.mp h₁
  obtain ⟨a,t₂,h₂,hk₂⟩ := bind_ok.mp hk₁
  have hacquired := acquire_final h₂
  have hrestarted : ∀ {status expiredBefore message}, status ≠ .completed →
      restarted q a.record status expiredBefore message t₂ = .ok (reservation,t') →
      ∀ x ∈ t, x.status = .completed → x ∈ t' := by
    intro status expiredBefore message hstatus hres x hx hs
    obtain ⟨-,r,-,hr,hrow⟩ := restarted_ok hres
    exact replaced_completed hrow (hr ▸ hstatus) x (hacquired x hx) hs
  by_cases hin : a.inserted = true
  · rw [if_pos hin] at hk₂
    obtain ⟨-,rfl⟩ := pure_ok.mp hk₂
    exact fun x hx _ => hacquired x hx
  · rw [if_neg hin] at hk₂
    obtain ⟨_,t₃,h₃,hk₃⟩ := bind_ok.mp hk₂
    obtain ⟨-,rfl⟩ := require_ok.mp h₃
    cases hstatus : a.record.status with
    | completed =>
      rw [hstatus] at hk₃
      obtain ⟨result,t₄,h₄,hk₄⟩ := bind_ok.mp hk₃
      obtain ⟨-,rfl⟩ := orFail_ok.mp h₄
      obtain ⟨-,rfl⟩ := pure_ok.mp hk₄
      exact fun x hx _ => hacquired x hx
    | failed =>
      rw [hstatus] at hk₃
      exact hrestarted (by simp) hk₃
    | reserved =>
      rw [hstatus] at hk₃
      by_cases hexpired : a.record.expiresAt ≤ q.now
      · simp only [hexpired,if_true] at hk₃
        exact hrestarted (by simp) hk₃
      · simp only [hexpired,if_false] at hk₃
        cases fail_ok.mp hk₃

theorem completeCall_grows (c : Call) (reservation : IdempotencyReservation)
    (result : IdempotencyResultReference) : Moves Grows (completeCall c reservation result) := by
  intro s a t h
  obtain ⟨records,hcomplete,rfl⟩ := within_ok.mp h
  obtain ⟨-,resultType,r,-,hguard,hrow⟩ := complete_effect hcomplete
  have hstatus := (reservedFor_fields hguard).2.1
  exact ⟨fun p hp => ⟨p.active,hp⟩,fun r hr => ⟨r.enabled,hr⟩,
    replaced_completed hrow (by simp [hstatus])⟩

section Calls

variable (S : RulePackAdminService)

theorem reserveCall_grows (service : Checked idempotencyServiceChecks) (c : Call)
    (membershipId : UUID7) (operation : String) (request : IdempotencyRequest) :
    Moves Grows (reserveCall S service c membershipId operation request) := by
  intro s a t h
  obtain ⟨p,s₁,h₁,hk₁⟩ := bind_ok.mp h
  obtain ⟨-,rfl⟩ := ofExcept_ok.mp h₁
  obtain ⟨records,hreserve,rfl⟩ := within_ok.mp hk₁
  exact ⟨fun p hp => ⟨p.active,hp⟩,fun r hr => ⟨r.enabled,hr⟩,reserve_final hreserve⟩

theorem orInvalidRequest_ok {α : Type} {x : AdminTx α} {a : α} {s t : RulePackStore} :
    orInvalidRequest x s = .ok (a,t) ↔ x s = .ok (a,t) := by
  unfold orInvalidRequest
  constructor
  · intro h
    split at h
    · cases h
    · exact h
  · intro h
    rw [h]

theorem orInvalidRequest_grows {α : Type} {x : AdminTx α} (h : Moves Grows x) :
    Moves Grows (orInvalidRequest x) :=
  fun s a t hx => h s a t (orInvalidRequest_ok.mp hx)

theorem ofExcept_grows {α ε : Type} (f : ε → RulePackAdminFailure) (x : Except ε α) :
    Moves Grows (ofExcept f x : AdminTx α) := by
  intro s a t h
  obtain ⟨-,rfl⟩ := ofExcept_ok.mp h
  exact refl s

theorem requirePack_grows (tenantId packId : UUID7) :
    Moves Grows (requirePack tenantId packId) :=
  moves_bind (moves_read _) fun _ => moves_orFail _ _

theorem findRuleById_grows (tenantId packId ruleId : UUID7) :
    Moves Grows (findRuleById tenantId packId ruleId) :=
  moves_bind (moves_read _) fun _ => moves_orFail _ _

theorem actorIds_grows (context : TenantContext) : Moves Grows (actorIds context) :=
  moves_bind (moves_orFail _ _) fun _ => moves_orFail _ _

theorem storePack_grows (c : CreatePack) : Moves Grows (storePack c) := by
  unfold storePack
  split
  · apply moves_bind
    · exact moves_require _ _
    intro _
    apply moves_bind
    · exact moves_read _
    intro _
    apply moves_bind
    · exact ofExcept_grows _ _
    intro _
    apply moves_bind
    · exact insertPack_grows _
    · exact fun _ => moves_pure _
  · exact moves_fail _

theorem storeRule_grows (c : AddRule) : Moves Grows (storeRule S c) := by
  apply moves_bind
  · exact ofExcept_grows _ _
  intro _
  apply moves_bind
  · exact moves_read _
  intro _
  apply moves_bind
  · exact moves_require _ _
  intro _
  apply moves_bind
  · exact insertRule_grows _
  · exact fun _ => moves_pure _

theorem createOnce_grows (service : Checked idempotencyServiceChecks) (c : CreatePack)
    (key : String) (membershipId : UUID7) :
    Moves Grows (createOnce S service c key membershipId) := by
  apply moves_bind
  · exact reserveCall_grows S _ _ _ _ _
  intro reservation
  cases reservation.replay with
  | some replay => exact requirePack_grows _ _
  | none =>
    apply moves_bind
    · exact storePack_grows c
    intro created
    apply moves_bind
    · exact completeCall_grows _ _ _
    · exact fun _ => moves_pure _

theorem createPack_grows (c : CreatePack) : Moves Grows (createPack S c) := by
  apply moves_bind
  · exact actorIds_grows _
  intro membershipId
  apply orInvalidRequest_grows
  split
  · exact createOnce_grows S _ _ _ _
  · exact storePack_grows c

theorem addOnce_grows (service : Checked idempotencyServiceChecks) (c : AddRule)
    (key : String) (membershipId : UUID7) :
    Moves Grows (addOnce S service c key membershipId) := by
  apply moves_bind
  · exact reserveCall_grows S _ _ _ _ _
  intro reservation
  cases reservation.replay with
  | some replay => exact findRuleById_grows _ _ _
  | none =>
    apply moves_bind
    · exact storeRule_grows S c
    intro stored
    apply moves_bind
    · exact completeCall_grows _ _ _
    · exact fun _ => moves_pure _

theorem addRule_grows (c : AddRule) : Moves Grows (addRule S c) := by
  apply moves_bind
  · exact actorIds_grows _
  intro membershipId
  apply moves_bind
  · exact requirePack_grows _ _
  intro _
  apply orInvalidRequest_grows
  split
  · exact addOnce_grows S _ _ _ _
  · exact storeRule_grows S c

theorem toggleRule_grows (c : SetRuleEnabled) : Moves Grows (toggleRule c) := by
  apply moves_bind
  · exact requirePack_grows _ _
  intro _
  apply moves_bind
  · exact moves_bind (updateRules_grows _ _) fun _ => moves_pure _
  · exact fun _ => moves_require _ _

theorem setRuleEnabled_grows (c : SetRuleEnabled) : Moves Grows (setRuleEnabled S c) := by
  unfold setRuleEnabled
  split
  · exact toggleRule_grows c
  · apply moves_bind
    · exact moves_orFail _ _
    intro membershipId
    apply moves_bind
    · exact reserveCall_grows S _ _ _ _ _
    intro reservation
    apply moves_ite
    · exact fun _ => moves_pure _
    · exact fun _ => moves_bind (toggleRule_grows c) fun _ => completeCall_grows _ _ _

theorem activateRows_grows (c : ActivatePack) : Moves Grows (activateRows c) := by
  apply moves_bind
  · exact moves_read _
  intro target
  cases target with
  | none => exact moves_pure _
  | some p =>
    apply moves_bind
    · exact updatePacks_grows _ _
    intro _
    exact moves_bind (updatePacks_grows _ _) fun _ => moves_pure _

theorem activateNow_grows (c : ActivatePack) : Moves Grows (activateNow c) := by
  apply moves_bind
  · exact requirePack_grows _ _
  intro _
  exact moves_bind (activateRows_grows c) fun _ => moves_require _ _

theorem activatePack_grows (c : ActivatePack) : Moves Grows (activatePack S c) := by
  unfold activatePack
  split
  · exact moves_bind (activateNow_grows c) fun _ => requirePack_grows _ _
  · apply moves_bind
    · exact moves_orFail _ _
    intro membershipId
    apply moves_bind
    · exact reserveCall_grows S _ _ _ _ _
    intro reservation
    apply moves_ite
    · exact fun _ => requirePack_grows _ _
    · intro _
      apply moves_bind
      · exact activateNow_grows c
      intro _
      exact moves_bind (completeCall_grows _ _ _) fun _ => requirePack_grows _ _

theorem step_grows (op : AdminOp) (s : RulePackStore) : Grows s (adminStep S op s) := by
  cases op with
  | createPack c => exact moves_commit (createPack_grows S c) s
  | addRule c => exact moves_commit (addRule_grows S c) s
  | setRuleEnabled c => exact moves_commit (setRuleEnabled_grows S c) s
  | activatePack c => exact moves_commit (activatePack_grows S c) s

theorem run_grows (ops : List AdminOp) (s : RulePackStore) :
    Grows s (run (adminStep S) ops s) :=
  run_related (step_grows S) ops s

/-- No pack and no rule is ever lost, and only their flags change. -/
theorem packs_stay (ops later : List AdminOp) (s : RulePackStore) :
    Grows (run (adminStep S) ops s) (run (adminStep S) (ops++later) s) := by
  rw [run_append]
  exact run_grows S later _

end Calls

section Fingerprints

variable {S : RulePackAdminService} {c d : AddRule} {key : String}

/-- The parameters of a rule, which are all that the fingerprint covers. -/
structure SameParameters (c d : AddRule) : Prop where
  triggerKind : c.triggerKind = d.triggerKind
  label : c.label = d.label
  pattern : c.pattern = d.pattern
  riskLevel : c.riskLevel = d.riskLevel
  suggestion : c.suggestion = d.suggestion

theorem triggerKind_value {a b : RuleTriggerKind}
    (h : RuleTriggerKind.value a = RuleTriggerKind.value b) : a = b := by
  cases a <;> cases b <;> first | rfl | exact absurd h (by decide)

theorem riskLevel_value {a b : RiskLevel} (h : RiskLevel.value a = RiskLevel.value b) :
    a = b := by
  cases a <;> cases b <;> first | rfl | exact absurd h (by decide)

def ruleFields (c : AddRule) : JsonObject :=
  [("trigger_kind",.string (RuleTriggerKind.value c.triggerKind)),("label",.string c.label),
    ("pattern",.string c.pattern),("risk_level",.string (RiskLevel.value c.riskLevel)),
    ("suggestion",.string c.suggestion)]

def addRoute : List Char :=
  "/api/v1/tenants/\x7btenant_id\x7d/rule-packs/\x7bpack_id\x7d/rules".toList

theorem add_input (c : AddRule) (key : String) :
    Input (addRequest c key) "POST".toList addRoute (ruleFields c) where
  method_ok := by
    change canonicalMethod "POST" = _
    decide
  route_ok := by
    change canonicalRoute
      "/api/v1/tenants/\x7btenant_id\x7d/rule-packs/\x7bpack_id\x7d/rules" = _
    decide
  values_ok := by rfl
  finite_ok := by rfl

def addFingerprint (S : RulePackAdminService) (c : AddRule) : Digest :=
  S.sha256 (fingerprintInput "POST".toList addRoute
    (encode (dumps (.object (ruleFields c)))))

def keyHash (S : RulePackAdminService) (key : String) : Digest :=
  S.hmac S.keyHashSecret (encode "idempotency-key:v1:".toList++encode key.toList)

theorem prepare_add (hkey : keyOk key = true) :
    ∃ p, prepare S.hmac S.sha256 S.keyHashSecret (addRequest c key) = .ok p ∧
      p.prepared = ⟨keyHash S key,addFingerprint S c⟩ :=
  ⟨_,prepare_of (requestInput_of hkey (add_input c key)),rfl⟩

theorem prepare_key {q : IdempotencyRequest} {p : PreparedRequest}
    (h : prepare S.hmac S.sha256 S.keyHashSecret q = .ok p) : keyOk q.key = true := by
  obtain ⟨x,hx,-⟩ := prepare_ok h
  by_contra hkey
  rw [requestInput,if_neg hkey] at hx
  cases hx

theorem fingerprint_same (h : SameParameters c d) : addFingerprint S c = addFingerprint S d := by
  have hfields : ruleFields c = ruleFields d := by
    simp only [ruleFields,h.triggerKind,h.label,h.pattern,h.riskLevel,h.suggestion]
  rw [addFingerprint,addFingerprint,hfields]

theorem fingerprint_differs (hkey : keyOk key = true)
    (hfree : Separates S.sha256 (addRequest c key) (addRequest d key))
    (h : addFingerprint S c = addFingerprint S d) : SameParameters c d := by
  have hinput := hfree _ _ (requestInput_of hkey (add_input c key))
    (requestInput_of hkey (add_input d key)) h
  have hplain := method_plain (add_input c key).method_ok
  have hroute := route_plain (add_input c key).route_ok
  have hdumps := (fingerprintInput_inj hplain hplain hroute hroute hinput).2.2
  have hsorted := dumps_inj (add_input c key).finite_ok (add_input d key).finite_ok hdumps
  have hkeys : ((ruleFields c).map Prod.fst).Nodup := by simp [ruleFields]
  have hsame : (ruleFields c).map Prod.fst = (ruleFields d).map Prod.fst := rfl
  have hfields := object_determined hsame hkeys hsorted
  simp only [ruleFields,List.map_cons,List.cons.injEq,sorted,Json.string.injEq] at hfields
  obtain ⟨hkind,hlabel,hpattern,hrisk,hsuggestion,-⟩ := hfields
  exact ⟨triggerKind_value hkind,hlabel,hpattern,riskLevel_value hrisk,hsuggestion⟩

end Fingerprints

section First

variable {S : RulePackAdminService} {service : Checked idempotencyServiceChecks}
  {c : AddRule} {key : String} {member : UUID7} {s t : RulePackStore} {v : RulePackRule}

def Known (c : AddRule) (s : RulePackStore) : Prop :=
  ∃ p ∈ s.packs, p.tenantId = c.context.tenantId ∧ p.id = c.packId

theorem requirePack_ok {tenantId packId : UUID7} {p : RulePack}
    (h : requirePack tenantId packId s = .ok (p,t)) :
    (∃ p ∈ s.packs, p.tenantId = tenantId ∧ p.id = packId) ∧ t = s := by
  obtain ⟨packs,s₁,h₁,hk₁⟩ := bind_ok.mp h
  obtain ⟨rfl,rfl⟩ := read_ok.mp h₁
  obtain ⟨hfind,rfl⟩ := orFail_ok.mp hk₁
  obtain ⟨hmem,htenant⟩ := mem_selectRows.mp (List.mem_of_find?_eq_some hfind)
  have hid := List.find?_some (p := fun p : RulePack => p.id == packId) hfind
  exact ⟨⟨p,hmem,eq_of_beq htenant,eq_of_beq hid⟩,rfl⟩

theorem requirePack_known (h : Known c s) :
    ∃ p, requirePack c.context.tenantId c.packId s = .ok (p,s) := by
  obtain ⟨p,hp,htenant,hid⟩ := h
  have hsome : ((listPacks c.context.tenantId s).find? fun p => p.id == c.packId).isSome := by
    rw [List.find?_isSome]
    exact ⟨p,mem_selectRows.mpr ⟨hp,by simp [htenant]⟩,by simp [hid]⟩
  obtain ⟨q,hq⟩ := Option.isSome_iff_exists.mp hsome
  refine ⟨q,bind_ok.mpr ⟨_,s,read_ok.mpr ⟨rfl,rfl⟩,?_⟩⟩
  exact orFail_ok.mpr ⟨hq,rfl⟩

theorem requirePack_unknown (h : ¬Known c s) :
    requirePack c.context.tenantId c.packId s = .error .notFound := by
  have hnone : ((listPacks c.context.tenantId s).find? fun p => p.id == c.packId) = none := by
    rw [List.find?_eq_none]
    intro p hp hid
    obtain ⟨hmem,htenant⟩ := mem_selectRows.mp hp
    exact h ⟨p,hmem,eq_of_beq htenant,eq_of_beq hid⟩
  refine (bind_run (read_ok.mpr ⟨rfl,rfl⟩)).trans ?_
  rw [hnone]
  rfl

theorem findRuleById_found (hv : v ∈ s.rules) (henabled : v.enabled = true) :
    findRuleById v.tenantId v.packId v.id s = .ok (v,s) := by
  have hmem : v ∈ rulesForPack v.tenantId v.packId s :=
    mem_selectRows.mpr ⟨hv,by simp [henabled]⟩
  have hsome : ((rulesForPack v.tenantId v.packId s).find? fun r => r.id == v.id).isSome := by
    rw [List.find?_isSome]
    exact ⟨v,hmem,by simp⟩
  obtain ⟨w,hw⟩ := Option.isSome_iff_exists.mp hsome
  have hws := (mem_selectRows.mp (List.mem_of_find?_eq_some hw)).1
  have hid := List.find?_some (p := fun r : RulePackRule => r.id == v.id) hw
  obtain rfl : w = v := eq_of_key hws hv (eq_of_beq hid)
  refine bind_ok.mpr ⟨_,s,read_ok.mpr ⟨rfl,rfl⟩,?_⟩
  exact orFail_ok.mpr ⟨hw,rfl⟩

theorem findRuleById_ok {tenantId packId ruleId : UUID7}
    (h : findRuleById tenantId packId ruleId s = .ok (v,t)) :
    v ∈ s.rules ∧ v.packId = packId ∧ v.enabled = true ∧ v.id = ruleId ∧ t = s := by
  obtain ⟨rules,s₁,h₁,hk₁⟩ := bind_ok.mp h
  obtain ⟨rfl,rfl⟩ := read_ok.mp h₁
  obtain ⟨hfind,rfl⟩ := orFail_ok.mp hk₁
  obtain ⟨hmem,hrule⟩ := mem_selectRows.mp (List.mem_of_find?_eq_some hfind)
  have hid := List.find?_some (p := fun r : RulePackRule => r.id == ruleId) hfind
  simp only [Bool.and_eq_true,beq_iff_eq] at hrule
  exact ⟨hmem,hrule.1.2,hrule.2,eq_of_beq hid,rfl⟩

theorem findRuleById_error {tenantId packId ruleId : UUID7} {e : RulePackAdminFailure}
    (h : findRuleById tenantId packId ruleId s = .error e) : e = .notFound := by
  rcases bind_error.mp h with h | ⟨rules,s₁,-,h₁⟩
  · cases h
  · cases hfind : rules.find? fun r => r.id == ruleId with
    | none =>
      rw [hfind] at h₁
      exact (Except.error.inj h₁).symm
    | some r =>
      rw [hfind] at h₁
      cases h₁

structure StoredRule (c : AddRule) (s : RulePackStore) (v : RulePackRule) (t : RulePackStore) :
    Prop where
  pack : v.packId = c.packId
  tenant : v.tenantId = c.context.tenantId
  rules : Inserted v s.rules t.rules
  records : t.records = s.records

theorem buildPackRule_ok (h : buildPackRule S c = .ok v) :
    v.packId = c.packId ∧ v.tenantId = c.context.tenantId := by
  unfold buildPackRule at h
  split_ifs at h
  cases h
  exact ⟨rfl,rfl⟩

theorem storeRule_ok (h : storeRule S c s = .ok (v,t)) : StoredRule c s v t := by
  obtain ⟨rule,s₁,h₁,hk₁⟩ := bind_ok.mp h
  obtain ⟨hbuild,rfl⟩ := ofExcept_ok.mp h₁
  obtain ⟨pack,s₂,h₂,hk₂⟩ := bind_ok.mp hk₁
  obtain ⟨-,rfl⟩ := read_ok.mp h₂
  obtain ⟨_,s₃,h₃,hk₃⟩ := bind_ok.mp hk₂
  obtain ⟨-,rfl⟩ := require_ok.mp h₃
  obtain ⟨_,s₄,h₄,hk₄⟩ := bind_ok.mp hk₃
  obtain ⟨rules,hrules,rfl⟩ := zoom_ok.mp h₄
  obtain ⟨rfl,rfl⟩ := pure_ok.mp hk₄
  obtain ⟨hpack,htenant⟩ := buildPackRule_ok hbuild
  exact ⟨hpack,htenant,insertRow_ok.mp hrules,rfl⟩

theorem addRule_ok (hkey : keyOf S c.toCall = some (service,key))
    (h : addRule S c s = .ok (v,t)) : ∃ member, c.context.membershipUserId.isSome = true ∧
    c.context.membershipId = some member ∧ Known c s ∧
    addOnce S service c key member s = .ok (v,t) := by
  obtain ⟨member,s₁,h₁,hk₁⟩ := bind_ok.mp h
  obtain ⟨user,s₂,h₂,hk₂⟩ := bind_ok.mp h₁
  obtain ⟨huser,rfl⟩ := orFail_ok.mp h₂
  obtain ⟨hmember,rfl⟩ := orFail_ok.mp hk₂
  obtain ⟨p,s₃,h₃,hk₃⟩ := bind_ok.mp hk₁
  obtain ⟨hpack,rfl⟩ := requirePack_ok h₃
  have honce := orInvalidRequest_ok.mp hk₃
  rw [hkey] at honce
  exact ⟨member,by rw [huser]; rfl,hmember,hpack,honce⟩

def memberKey (S : RulePackAdminService) (tenantId member : UUID7) (key : String) :
    IdempotencyKey :=
  ⟨(memberScope tenantId member).value,"rule_pack.add_rule",keyHash S key⟩

theorem add_operation : operationOk "rule_pack.add_rule" = true := by decide

/-- What later states have of a call that created `v`. -/
structure Recorded (S : RulePackAdminService) (c : AddRule) (key : String) (member : UUID7)
    (v : RulePackRule) (s : RulePackStore) : Prop where
  pack : v.packId = c.packId
  tenant : v.tenantId = c.context.tenantId
  known : Known c s
  rule : ∃ enabled, withEnabled enabled v ∈ s.rules
  answered : ∃ r, AnsweredWith s.records (memberKey S c.context.tenantId member key)
    (addFingerprint S c) (ruleResult v.id) r

theorem known_grows (h : Known c s) (hst : Grows s t) : Known c t := by
  obtain ⟨p,hp,htenant,hid⟩ := h
  obtain ⟨active,hactive⟩ := hst.packs p hp
  exact ⟨_,hactive,htenant,hid⟩

theorem recorded_grows (h : Recorded S c key member v s) (hst : Grows s t) :
    Recorded S c key member v t := by
  obtain ⟨enabled,hrule⟩ := h.rule
  obtain ⟨last,hlast⟩ := hst.rules _ hrule
  obtain ⟨r,hr⟩ := h.answered
  exact ⟨h.pack,h.tenant,known_grows h.known hst,⟨last,hlast⟩,
    ⟨r,hst.completed r hr.mem hr.completed,hr.key,hr.completed,hr.fingerprint,hr.result⟩⟩

theorem addOnce_created (h : addOnce S service c key member s = .ok (v,t)) (hknown : Known c s)
    (hfresh : ∀ r ∈ s.records, r.id ≠ c.recordId) (hcreated : ∀ r ∈ s.rules, r.id ≠ v.id) :
    keyOk key = true ∧ Recorded S c key member v t := by
  have hkept := known_grows hknown (addOnce_grows S _ _ _ _ s v t h)
  obtain ⟨reservation,s₁,h₁,hk₁⟩ := bind_ok.mp h
  obtain ⟨p,s₂,h₂,hk₂⟩ := bind_ok.mp h₁
  obtain ⟨hprepare,rfl⟩ := ofExcept_ok.mp h₂
  obtain ⟨records,hreserve,rfl⟩ := within_ok.mp hk₂
  have hok : keyOk key = true :=
    (prepare_key hprepare :)
  obtain ⟨p',hprepare',hprepared⟩ := prepare_add (S := S) (c := c) hok
  obtain rfl := Except.ok.inj (hprepare.symm.trans hprepare')
  have heffect := (reserve_effect hfresh hreserve).2
  cases hreplay : reservation.replay with
  | some replay =>
    simp only [hreplay] at hk₁
    have hold := (findRuleById_ok hk₁).1
    exact absurd rfl (hcreated v hold)
  | none =>
    simp only [hreplay] at hk₁
    obtain ⟨stored,s₃,h₃,hk₃⟩ := bind_ok.mp hk₁
    obtain ⟨hpack,htenant,hrules,hrecords⟩ := storeRule_ok h₃
    obtain ⟨_,s₄,h₄,hk₄⟩ := bind_ok.mp hk₃
    obtain ⟨records',hcomplete,rfl⟩ := within_ok.mp h₄
    obtain ⟨rfl,rfl⟩ := pure_ok.mp hk₄
    change IdempotencyService.complete reservation _ _ s₃.records = _ at hcomplete
    rw [hrecords] at hcomplete
    obtain ⟨⟨r,hr⟩,-⟩ := complete_answered heffect hcomplete
    have hkey := hr.key
    have hfingerprint := hr.fingerprint
    simp only [requestKey,reserveRequest,hprepared] at hkey hfingerprint
    have hrule : stored ∈ s₃.rules := (inserted_mem hrules).mpr (Or.inl rfl)
    exact ⟨hok,hpack,htenant,hkept,⟨stored.enabled,hrule⟩,r,hr.mem,hkey,hr.completed,
      hfingerprint,hr.result⟩

end First

section Second

variable {S : RulePackAdminService} {service : Checked idempotencyServiceChecks}
  {c d : AddRule} {key : String} {member : UUID7} {s u : RulePackStore} {v : RulePackRule}

theorem orInvalidRequest_stop {α : Type} {x : AdminTx α} {e : RulePackAdminFailure}
    (he : ∀ message, e ≠ .valueError message) (h : x s = .error e) :
    orInvalidRequest x s = .error e := by
  unfold orInvalidRequest
  rw [h]
  cases e with
  | valueError message => exact absurd rfl (he message)
  | _ => rfl

theorem addRule_unknown (huser : d.context.membershipUserId.isSome = true)
    (hmember : d.context.membershipId = some member) (h : ¬Known d u) :
    addRule S d u = .error .notFound := by
  obtain ⟨user,huser⟩ := Option.isSome_iff_exists.mp huser
  have hactor : actorIds d.context u = .ok (member,u) :=
    bind_ok.mpr ⟨user,u,orFail_ok.mpr ⟨huser,rfl⟩,
      orFail_ok.mpr ⟨hmember,rfl⟩⟩
  rw [addRule,bind_run hactor]
  exact bind_stop (requirePack_unknown h)

theorem addRule_answered (hkey : keyOf S d.toCall = some (service,key)) (hok : keyOk key = true)
    (huser : d.context.membershipUserId.isSome = true)
    (hmember : d.context.membershipId = some member) (hknown : Known d u)
    {fingerprint : Digest} {ruleId : UUID7} {r : IdempotencyRecordModel}
    (hr : AnsweredWith u.records (memberKey S d.context.tenantId member key) fingerprint
      (ruleResult ruleId) r)
    (hfresh : ∀ x ∈ u.records, x.id ≠ d.recordId) :
    addRule S d u =
      if fingerprint = addFingerprint S d then
        findRuleById d.context.tenantId d.packId ruleId u
      else .error (.idempotency .conflict) := by
  obtain ⟨user,huser⟩ := Option.isSome_iff_exists.mp huser
  obtain ⟨p,hpack⟩ := requirePack_known hknown
  obtain ⟨prepared,hprepare,hprepared⟩ := prepare_add (S := S) (c := d) hok
  have hactor : actorIds d.context u = .ok (member,u) :=
    bind_ok.mpr ⟨user,u,orFail_ok.mpr ⟨huser,rfl⟩,
      orFail_ok.mpr ⟨hmember,rfl⟩⟩
  have hreserve := reserve_completed
    (q := reserveRequest service d.toCall member "rule_pack.add_rule" prepared.prepared)
    add_operation hr.mem (by rw [hr.key,hprepared]; rfl) (hfresh r hr.mem) hr.completed hr.result
  have hdigest : prepared.prepared.requestFingerprint = addFingerprint S d :=
    congrArg PreparedIdempotencyRequest.requestFingerprint hprepared
  simp only [reserveRequest,hdigest,hr.fingerprint] at hreserve
  have hstart : addRule S d u =
      orInvalidRequest (addOnce S service d key member) u := by
    rw [addRule,bind_run hactor,bind_run hpack,hkey]
  rw [hstart]
  by_cases hsame : fingerprint = addFingerprint S d
  · rw [if_pos hsame] at hreserve ⊢
    have hcall : reserveCall S service d.toCall member "rule_pack.add_rule" (addRequest d key) u =
        .ok (⟨r.id,addFingerprint S d,some (ruleResult ruleId)⟩,u) := by
      rw [reserveCall,bind_run (ofExcept_ok.mpr ⟨hprepare,rfl⟩)]
      exact within_ok.mpr ⟨u.records,hreserve,rfl⟩
    have honce : addOnce S service d key member u =
        findRuleById d.context.tenantId d.packId ruleId u := by
      rw [addOnce,bind_run hcall]
      rfl
    cases hfind : findRuleById d.context.tenantId d.packId ruleId u with
    | ok found =>
      obtain ⟨w,t⟩ := found
      exact orInvalidRequest_ok.mpr (honce.trans hfind)
    | error e =>
      have hmissing := findRuleById_error hfind
      exact orInvalidRequest_stop (by simp [hmissing]) (honce.trans hfind)
  · rw [if_neg hsame] at hreserve ⊢
    have hcall : reserveCall S service d.toCall member "rule_pack.add_rule" (addRequest d key) u =
        .error (.idempotency .conflict) := by
      rw [reserveCall,bind_run (ofExcept_ok.mpr ⟨hprepare,rfl⟩)]
      exact within_stop (e := IdempotencyFailure.conflict) hreserve
    exact orInvalidRequest_stop (by simp) (bind_stop hcall)

structure SameRequest (c d : AddRule) : Prop where
  pack : c.packId = d.packId
  parameters : SameParameters c d

/-- A call that repeats the key of the call that created `v` returns `v`, which
may have been switched, for the same request and conflicts for any other one. -/
structure Replays (S : RulePackAdminService) (c d : AddRule) (v : RulePackRule)
    (s : RulePackStore) : Prop where
  same : SameRequest c d → ∃ enabled, addRule S d s = .ok (withEnabled enabled v,s)
  other : ¬SameRequest c d → addRule S d s = .error (.idempotency .conflict)

/-- The request is the same and its rule is enabled, or the parameters differ and
the tenant has the pack of the new call. -/
def ReplayHolds (c d : AddRule) (v : RulePackRule) (s : RulePackStore) : Prop :=
  (SameRequest c d ∧ ∃ r ∈ s.rules, r.id = v.id ∧ r.enabled = true) ∨
    ¬SameParameters c d ∧ Known d s

end Second

section Law

variable {S : RulePackAdminService} {service : Checked idempotencyServiceChecks}
  {c d : AddRule} {key : String} {member : UUID7} {u : RulePackStore} {v : RulePackRule}

/-- A repeated key on a pack of the tenant is a lookup for the same parameters
and a conflict for other ones. -/
theorem addRule_repeated (hd : keyOf S d.toCall = some (service,key)) (hok : keyOk key = true)
    (hcontext : d.context = c.context) (huser : c.context.membershipUserId.isSome = true)
    (hmember : c.context.membershipId = some member)
    (hfree : Separates S.sha256 (addRequest c key) (addRequest d key))
    (hu : Recorded S c key member v u) (hfresh : ∀ r ∈ u.records, r.id ≠ d.recordId)
    (hknown : Known d u) :
    (SameParameters c d → addRule S d u = findRuleById c.context.tenantId d.packId v.id u) ∧
    (¬SameParameters c d → addRule S d u = .error (.idempotency .conflict)) := by
  obtain ⟨r,hr⟩ := hu.answered
  rw [← hcontext] at huser hmember hr
  have hcall := addRule_answered hd hok huser hmember hknown hr hfresh
  constructor
  · intro hsame
    rw [hcall,if_pos (fingerprint_same hsame),hcontext]
  · intro hparameters
    rw [hcall,if_neg fun h => hparameters (fingerprint_differs hok hfree h)]

theorem recorded_rule (hu : Recorded S c key member v u) {x : RulePackRule} (hx : x ∈ u.rules)
    (hid : x.id = v.id) : x = withEnabled x.enabled v := by
  obtain ⟨enabled,hrule⟩ := hu.rule
  have hsame : x = withEnabled enabled v := eq_of_key hx hrule hid
  rw [hsame]
  rfl

theorem replays_iff (hd : keyOf S d.toCall = some (service,key)) (hok : keyOk key = true)
    (hcontext : d.context = c.context) (huser : c.context.membershipUserId.isSome = true)
    (hmember : c.context.membershipId = some member)
    (hfree : Separates S.sha256 (addRequest c key) (addRequest d key))
    (hu : Recorded S c key member v u) (hfresh : ∀ r ∈ u.records, r.id ≠ d.recordId) :
    Replays S c d v u ↔ ReplayHolds c d v u := by
  have hcall := addRule_repeated hd hok hcontext huser hmember hfree hu hfresh
  have hpack : c.packId = d.packId → Known d u := by
    intro hsame
    obtain ⟨p,hp,htenant,hid⟩ := hu.known
    exact ⟨p,hp,by rw [hcontext]; exact htenant,hid.trans hsame⟩
  rw [← hcontext] at huser hmember
  constructor
  · intro h
    by_cases hparameters : SameParameters c d
    · left
      by_cases hpacks : c.packId = d.packId
      · refine ⟨⟨hpacks,hparameters⟩,?_⟩
        obtain ⟨enabled,hreplay⟩ := h.same ⟨hpacks,hparameters⟩
        rw [(hcall (hpack hpacks)).1 hparameters] at hreplay
        obtain ⟨hmem,-,henabled,hid,-⟩ := findRuleById_ok hreplay
        exact ⟨_,hmem,hid,henabled⟩
      · -- the replay of a call on another pack looks the rule up there
        have hconflict := h.other fun hsame => hpacks hsame.pack
        by_cases hknown : Known d u
        · rw [(hcall hknown).1 hparameters] at hconflict
          cases findRuleById_error hconflict
        · rw [addRule_unknown huser hmember hknown] at hconflict
          cases hconflict
    · right
      refine ⟨hparameters,?_⟩
      by_contra hknown
      have hconflict := h.other fun hsame => hparameters hsame.parameters
      rw [addRule_unknown huser hmember hknown] at hconflict
      cases hconflict
  · intro h
    rcases h with ⟨hsame,x,hx,hid,henabled⟩ | ⟨hparameters,hknown⟩
    · refine ⟨fun _ => ⟨x.enabled,?_⟩,fun hother => absurd hsame hother⟩
      have hxv := recorded_rule hu hx hid
      have htenant : x.tenantId = c.context.tenantId := by
        rw [hxv]
        exact hu.tenant
      have hpacks : x.packId = d.packId := by
        rw [hxv]
        exact hu.pack.trans hsame.pack
      rw [(hcall (hpack hsame.pack)).1 hsame.parameters,← htenant,← hpacks,← hid,← hxv]
      exact findRuleById_found hx henabled
    · exact ⟨fun hsame => absurd hsame.parameters hparameters,
        fun _ => (hcall hknown).2 hparameters⟩

end Law

theorem rules_replayed (S : RulePackAdminService) (service : Checked idempotencyServiceChecks)
    (c d : AddRule) (key : String) (hc : keyOf S c.toCall = some (service,key))
    (hd : keyOf S d.toCall = some (service,key)) (hcontext : d.context = c.context)
    (hfree : Separates S.sha256 (addRequest c key) (addRequest d key))
    (before : List AdminOp) (v : RulePackRule) (t : RulePackStore)
    (hfirst : addRule S c (run (adminStep S) before .empty) = .ok (v,t))
    (hcreated : ∀ r ∈ (run (adminStep S) before .empty).rules, r.id ≠ v.id)
    (hfreshC : ∀ r ∈ (run (adminStep S) before .empty).records, r.id ≠ c.recordId)
    (after : List AdminOp)
    (hfreshD : ∀ r ∈ (run (adminStep S) after t).records, r.id ≠ d.recordId) :
    Replays S c d v (run (adminStep S) after t) ↔
      ReplayHolds c d v (run (adminStep S) after t) := by
  obtain ⟨member,huser,hmember,hknown,honce⟩ := addRule_ok hc hfirst
  obtain ⟨hok,hrecorded⟩ := addOnce_created honce hknown hfreshC hcreated
  have hlater := recorded_grows hrecorded (run_grows S after t)
  exact replays_iff hd hok hcontext huser hmember hfree hlater hfreshD

def sampleIdempotency : Checked idempotencyServiceChecks := ⟨{},IdempotencyService.defaults_ok⟩

def sampleService : RulePackAdminService where
  hmac _ bytes := lengthHash bytes
  sha256 := lengthHash
  keyHashSecret := []
  idempotency := some sampleIdempotency
  compiles _ := true

def sampleKey : String := "0123456789abcdef"

/-- `draw` tells the identifiers of the call. -/
def sampleCall (key : Option String) (draw : BitVec 62) : Call where
  context := ⟨⟨0,0,9⟩,some ⟨0,0,7⟩,some ⟨0,0,8⟩⟩
  idempotencyKey := key
  now := 0
  currentTimestamp := 0
  recordId := ⟨0,3,draw⟩

def samplePack (draw : BitVec 62) : CreatePack where
  toCall := sampleCall none draw
  name := "house rules"
  newPackId := ⟨0,1,draw⟩

def sampleRule (pack draw : BitVec 62) : AddRule where
  toCall := sampleCall (some sampleKey) draw
  packId := ⟨0,1,pack⟩
  triggerKind := .riskPhrase
  label := "penalty"
  pattern := "penalty"
  riskLevel := .high
  suggestion := "cap it"
  newRuleId := ⟨0,2,draw⟩

def sampleDisabled : SetRuleEnabled where
  toCall := sampleCall none 9
  packId := ⟨0,1,1⟩
  ruleId := ⟨0,2,1⟩
  enabled := false

def samplePacks : List AdminOp := [.createPack (samplePack 1),.createPack (samplePack 2)]

def sampleStore : RulePackStore := run (adminStep sampleService) samplePacks .empty

def sampleAdded : RulePackStore := commit (addRule sampleService (sampleRule 1 1)) sampleStore

/-- The first call creates its rule; a retry after the rule was disabled and the
same rule for the other pack are not found. -/
theorem sample_outcomes :
    (outcome (addRule sampleService (sampleRule 1 1) >>= fun v =>
      Relational.read fun t => (v.id,t.rules.rows.map fun r => (r.id,r.enabled),
        t.records.rows.map IdempotencyRecordModel.id)) sampleStore =
      .ok (⟨0,2,1⟩,[(⟨0,2,1⟩,true)],[⟨0,3,1⟩])) ∧
    outcome (addRule sampleService (sampleRule 1 2))
      (run (adminStep sampleService) [.setRuleEnabled sampleDisabled] sampleAdded) =
      .error .notFound ∧
    outcome (addRule sampleService (sampleRule 2 2)) sampleAdded = .error .notFound := by
  decide +kernel

theorem sample_added : ∃ v,
    addRule sampleService (sampleRule 1 1) sampleStore = .ok (v,sampleAdded) ∧
    (∃ r ∈ sampleAdded.rules, r.id = v.id ∧ r.enabled = true) ∧
    ∀ r ∈ sampleAdded.records, r.id = ⟨0,3,1⟩ := by
  obtain ⟨v,t,hcall,hread⟩ := bind_ok.mp (outcome_ok sample_outcomes.1)
  have hfields := (read_ok.mp hread).1
  have ht : sampleAdded = t := commit_ok hcall
  rw [ht]
  obtain ⟨hid,hrest⟩ := Prod.mk.inj hfields
  obtain ⟨hrules,hrecords⟩ := Prod.mk.inj hrest
  refine ⟨v,hcall,?_,?_⟩
  · have hmem : ((⟨0,2,1⟩ : UUID7),true) ∈ t.rules.rows.map fun r => (r.id,r.enabled) := by
      rw [hrules]
      exact List.mem_singleton_self _
    obtain ⟨r,hr,hfields⟩ := List.mem_map.mp hmem
    obtain ⟨hrid,henabled⟩ := Prod.mk.inj hfields
    exact ⟨r,hr,hrid.trans hid.symm,henabled⟩
  · intro r hr
    have hmem := List.mem_map_of_mem (f := IdempotencyRecordModel.id) hr
    rw [hrecords] at hmem
    exact List.mem_singleton.mp hmem

theorem sampleStore_empty : sampleStore.rules.rows = [] ∧ sampleStore.records.rows = [] := by
  decide

theorem outcome_error {ε σ α : Type} {x : Tx ε σ α} {s : σ} {e : ε}
    (h : outcome x s = .error e) : x s = .error e := by
  unfold outcome at h
  cases hx : x s with
  | error f =>
    rw [hx] at h
    exact congrArg Except.error (Except.error.inj h)
  | ok p =>
    rw [hx] at h
    cases h

theorem request_same {c d : AddRule} (h : SameParameters c d) (key : String) :
    addRequest c key = addRequest d key := by
  have hvalues : ruleValues c = ruleValues d := by
    simp only [ruleValues,h.triggerKind,h.label,h.pattern,h.riskLevel,h.suggestion]
  have hpayload : rulePayload c = rulePayload d := by
    apply checked_ext
    simp only [rulePayload,hvalues]
  rw [addRequest,addRequest,hpayload]

theorem sample_same : SameRequest (sampleRule 1 1) (sampleRule 1 2) where
  pack := rfl
  parameters := ⟨rfl,rfl,rfl,rfl,rfl⟩

/-- A retry is answered with the rule of the first call. -/
theorem rule_retried : ∃ v,
    addRule sampleService (sampleRule 1 1) sampleStore = .ok (v,sampleAdded) ∧
    Replays sampleService (sampleRule 1 1) (sampleRule 1 2) v sampleAdded := by
  obtain ⟨v,hcall,hrule,hrecords⟩ := sample_added
  have hfree : Separates sampleService.sha256 (addRequest (sampleRule 1 1) sampleKey)
      (addRequest (sampleRule 1 2) sampleKey) := by
    intro x y hx hy _
    rw [request_same sample_same.parameters] at hx
    obtain rfl := Except.ok.inj (hx.symm.trans hy)
    rfl
  have hrules : ∀ r ∈ sampleStore.rules, r.id ≠ v.id := by
    intro r hr
    rw [mem_rows,sampleStore_empty.1] at hr
    cases hr
  have hunused : ∀ r ∈ sampleStore.records, r.id ≠ (sampleRule 1 1).recordId := by
    intro r hr
    rw [mem_rows,sampleStore_empty.2] at hr
    cases hr
  have hfresh : ∀ r ∈ sampleAdded.records, r.id ≠ (sampleRule 1 2).recordId := by
    intro r hr hid
    exact absurd ((hrecords r hr).symm.trans hid) (by decide)
  have hreplay := rules_replayed sampleService sampleIdempotency (sampleRule 1 1)
    (sampleRule 1 2) sampleKey rfl rfl rfl hfree samplePacks v sampleAdded hcall hrules hunused []
    (by rw [run_nil]; exact hfresh)
  rw [run_nil] at hreplay
  exact ⟨v,hcall,hreplay.mpr (Or.inl ⟨sample_same,hrule⟩)⟩

/-- The retry of a disabled rule, and the same rule for another pack, are not found. -/
theorem replays_missed : ∃ v,
    addRule sampleService (sampleRule 1 1) sampleStore = .ok (v,sampleAdded) ∧
    ¬Replays sampleService (sampleRule 1 1) (sampleRule 1 2) v
      (run (adminStep sampleService) [.setRuleEnabled sampleDisabled] sampleAdded) ∧
    ¬Replays sampleService (sampleRule 1 1) (sampleRule 2 2) v sampleAdded := by
  obtain ⟨v,hcall,-⟩ := sample_added
  have hdisabled := outcome_error sample_outcomes.2.1
  have hother := outcome_error sample_outcomes.2.2
  refine ⟨v,hcall,?_,?_⟩
  · intro h
    obtain ⟨enabled,hreplay⟩ := h.same sample_same
    exact absurd (hdisabled.symm.trans hreplay) (by simp)
  · intro h
    have hconflict := h.other fun hsame => absurd hsame.pack (by decide)
    exact absurd (hother.symm.trans hconflict) (by simp)

end LawyerAgent.RulePackReplay
