import LawyerAgent.Relational.RowSessions
import LawyerAgent.RuleCheckRuns

/-!
# Activation of rule packs

`activate_pack` clears the other active packs of the tenant in one statement and
raises its own pack in a second one. The first statement sees the packs that are
committed and locks the rows it clears. Where no pack is active it locks
nothing, so a second activation may clear, and clear nothing, before the first
one is committed. An activation keeps the promise of one active pack exactly if
it is committed with no other pack activated since its own clear statement.
-/

set_option autoImplicit false

namespace LawyerAgent.RulePackActivation
open Relational Common RuleChecks RuleCheckRuns

/-- `seen` counts the activations committed before the clear statement, which cleared `ids`. -/
inductive ActivationPhase where
  | begun
  | found
  | cleared (seen : ℕ) (ids : List UUID7)
  | raised (seen : ℕ) (ids : List UUID7)
  | committed
  | ended

structure Activation where
  packId : UUID7
  phase : ActivationPhase

/-- The committed rows, the transactions and the packs whose activation was committed. -/
structure PackWorld where
  store : RuleStore
  sessions : List Activation
  activated : List UUID7

inductive ActivationOp where
  | begin (packId : UUID7)
  | select (i : ℕ)
  | clear (i : ℕ)
  | raise (i : ℕ)
  | commit (i : ℕ)
  | abort (i : ℕ)

def PackWorld.start (store : RuleStore) : PackWorld := ⟨store,[],[]⟩

variable (tenantId : UUID7)

def findPack (packId : UUID7) (s : RuleStore) : Option RulePack :=
  selectRow (fun p => p.tenantId == tenantId && p.id == packId) s.packs

def otherActive (packId : UUID7) (s : RuleStore) : List RulePack :=
  selectRows (fun p => p.tenantId == tenantId && p.active && p.id != packId) s.packs

def lockedBy (a : Activation) : List UUID7 :=
  match a.phase with
  | .cleared _ ids => ids
  | .raised _ ids => a.packId::ids
  | _ => []

/-- No transaction but `i` has locked one of the rows. -/
def rowsFree (i : ℕ) (ids : List UUID7) (w : PackWorld) : Bool :=
  (w.sessions.eraseIdx i).all fun a => (lockedBy a).all fun id => !ids.contains id

/-- The row as the two statements leave it. -/
def withActive (packId : UUID7) (ids : List UUID7) (p : RulePack) : RulePack :=
  {p with active := p.id == packId || (p.active && !ids.contains p.id)}

theorem withActive_fits (packId : UUID7) (ids : List UUID7) {p : RulePack}
    {t : Table tenantRulePacks} (h : p ∈ t) :
    Fits tenantRulePacks p (withActive packId ids p) :=
  have hcheck := checked h
  ⟨hcheck,rfl,fun _ => rfl,fun _ => rfl⟩

def writePacks (packId : UUID7) (ids : List UUID7) (t : Table tenantRulePacks) :
    Table tenantRulePacks where
  rows := t.rows.map (withActive packId ids)
  legal := by
    have hlegal := updated_legal (p := fun _ => true) t
      fun r hr _ => withActive_fits packId ids hr
    simpa only [if_true] using hlegal

def PackWorld.advance (w : PackWorld) (i : ℕ) (packId : UUID7) (phase : ActivationPhase) :
    PackWorld :=
  {w with sessions := w.sessions.set i ⟨packId,phase⟩}

def PackWorld.activate (w : PackWorld) (i : ℕ) (packId : UUID7) (ids : List UUID7) : PackWorld where
  store := {w.store with packs := writePacks packId ids w.store.packs}
  sessions := w.sessions.set i ⟨packId,.committed⟩
  activated := w.activated++[packId]

/-- A statement that would change a row another transaction has locked waits. -/
def activationStep : ActivationOp → PackWorld → PackWorld
  | .begin packId, w => {w with sessions := w.sessions++[⟨packId,.begun⟩]}
  | .select i, w =>
    match w.sessions[i]? with
    | some ⟨packId,.begun⟩ => w.advance i packId
        (if (findPack tenantId packId w.store).isSome then .found else .ended)
    | _ => w
  | .clear i, w =>
    match w.sessions[i]? with
    | some ⟨packId,.found⟩ =>
      let ids := (otherActive tenantId packId w.store).map RulePack.id
      if rowsFree i ids w then w.advance i packId (.cleared w.activated.length ids) else w
    | _ => w
  | .raise i, w =>
    match w.sessions[i]? with
    | some ⟨packId,.cleared seen ids⟩ =>
      if rowsFree i [packId] w then w.advance i packId (.raised seen ids) else w
    | _ => w
  | .commit i, w =>
    match w.sessions[i]? with
    | some ⟨packId,.raised _ ids⟩ => w.activate i packId ids
    | _ => w
  | .abort i, w =>
    match w.sessions[i]? with
    | some ⟨_,.committed⟩ => w
    | some ⟨packId,_⟩ => w.advance i packId .ended
    | none => w

/-- Since its clear statement no pack was activated, or its own pack was the last one. -/
def CommitsAlone : ActivationOp → PackWorld → Prop
  | .commit i, w =>
    match w.sessions[i]? with
    | some ⟨packId,.raised seen _⟩ =>
      seen = w.activated.length ∨ w.activated.getLast? = some packId
    | _ => True
  | _, _ => True

instance (op : ActivationOp) (w : PackWorld) : Decidable (CommitsAlone op w) :=
  match op with
  | .commit i =>
    match h : w.sessions[i]? with
    | some ⟨packId,.raised seen _⟩ =>
      decidable_of_iff (seen = w.activated.length ∨ w.activated.getLast? = some packId)
        (by rw [CommitsAlone,h])
    | some ⟨_,.begun⟩ | some ⟨_,.found⟩ | some ⟨_,.cleared _ _⟩ | some ⟨_,.committed⟩
    | some ⟨_,.ended⟩ | none => .isTrue (by simp only [CommitsAlone,h])
  | .begin _ | .select _ | .clear _ | .raise _ | .abort _ => .isTrue trivial

inductive ActivationEffect (w : PackWorld) : ActivationOp → PackWorld → Prop
  | unchanged (op : ActivationOp) : ActivationEffect w op w
  | begun (packId : UUID7) :
      ActivationEffect w (.begin packId) {w with sessions := w.sessions++[⟨packId,.begun⟩]}
  | found (i : ℕ) (packId : UUID7) (present : (findPack tenantId packId w.store).isSome = true) :
      ActivationEffect w (.select i) (w.advance i packId .found)
  | cleared (i : ℕ) (packId : UUID7) (held : w.sessions[i]? = some ⟨packId,.found⟩) :
      ActivationEffect w (.clear i) (w.advance i packId (.cleared w.activated.length
        ((otherActive tenantId packId w.store).map RulePack.id)))
  | raised (i : ℕ) (packId : UUID7) (seen : ℕ) (ids : List UUID7)
      (held : w.sessions[i]? = some ⟨packId,.cleared seen ids⟩) :
      ActivationEffect w (.raise i) (w.advance i packId (.raised seen ids))
  | committed (i : ℕ) (packId : UUID7) (seen : ℕ) (ids : List UUID7)
      (held : w.sessions[i]? = some ⟨packId,.raised seen ids⟩) :
      ActivationEffect w (.commit i) (w.activate i packId ids)
  | ended (op : ActivationOp) (i : ℕ) (packId : UUID7) :
      ActivationEffect w op (w.advance i packId .ended)

theorem step_effect (op : ActivationOp) (w : PackWorld) :
    ActivationEffect tenantId w op (activationStep tenantId op w) := by
  cases op with
  | begin packId => exact .begun packId
  | select i =>
    simp only [activationStep]
    split
    · rename_i packId hi
      split_ifs with hfound
      · exact .found i packId hfound
      · exact .ended _ i packId
    · exact .unchanged _
  | clear i =>
    simp only [activationStep]
    split
    · rename_i packId hi
      split_ifs with hfree
      · exact .cleared i packId hi
      · exact .unchanged _
    · exact .unchanged _
  | raise i =>
    simp only [activationStep]
    split
    · rename_i packId seen ids hi
      split_ifs with hfree
      · exact .raised i packId seen ids hi
      · exact .unchanged _
    · exact .unchanged _
  | commit i =>
    simp only [activationStep]
    split
    · rename_i packId seen ids hi
      exact .committed i packId seen ids hi
    · exact .unchanged _
  | abort i =>
    simp only [activationStep]
    split
    · exact .unchanged _
    · rename_i packId phase hne hi
      exact .ended _ i packId
    · exact .unchanged _

def OneActive (s : RuleStore) : Prop :=
  ∀ p ∈ s.packs, ∀ q ∈ s.packs, p.tenantId = tenantId → q.tenantId = tenantId →
    p.active = true → q.active = true → p = q

variable {tenantId}

theorem activePack_of_one {s : RuleStore} {p : RulePack} (hone : OneActive tenantId s)
    (hp : p ∈ s.packs) (htenant : p.tenantId = tenantId) (hactive : p.active = true) :
    activePack tenantId s = some p := by
  have hmem : ∀ q, q ∈ (selectRows (fun p => p.tenantId == tenantId && p.active)
      s.packs).insertionSort (fun p q => q.version ≤ p.version) ↔
        q ∈ s.packs ∧ q.tenantId = tenantId ∧ q.active = true := by
    intro q
    rw [List.mem_insertionSort,mem_selectRows]
    simp
  rw [activePack]
  cases hsorted : (selectRows (fun p => p.tenantId == tenantId && p.active)
      s.packs).insertionSort (fun p q => q.version ≤ p.version) with
  | nil =>
    rw [hsorted] at hmem
    exact absurd ((hmem p).mpr ⟨hp,htenant,hactive⟩) List.not_mem_nil
  | cons q qs =>
    rw [hsorted] at hmem
    obtain ⟨hq,hqtenant,hqactive⟩ := (hmem q).mp List.mem_cons_self
    rw [List.head?_cons,hone q hq p hp hqtenant htenant hqactive hactive]

def hasFound (a : Activation) : Bool :=
  match a.phase with
  | .found => true
  | .cleared _ _ => true
  | .raised _ _ => true
  | _ => false

def clearedOf (a : Activation) : Option (ℕ × List UUID7) :=
  match a.phase with
  | .cleared seen ids => some (seen,ids)
  | .raised seen ids => some (seen,ids)
  | _ => none

/-- Until the next activation is committed, what an activation has cleared is all that was
active. -/
structure ActivationSound (tenantId : UUID7) (w : PackWorld) : Prop where
  one : OneActive tenantId w.store
  last : ∀ packId, w.activated.getLast? = some packId →
    ∃ p ∈ w.store.packs, p.tenantId = tenantId ∧ p.id = packId ∧ p.active = true
  present : ∀ (i : ℕ) a, w.sessions[i]? = some a → hasFound a = true →
    ∃ p ∈ w.store.packs, p.tenantId = tenantId ∧ p.id = a.packId
  cleared : ∀ (i : ℕ) a seen ids, w.sessions[i]? = some a → clearedOf a = some (seen,ids) →
    seen ≤ w.activated.length ∧ (seen = w.activated.length → ∀ p ∈ w.store.packs,
      p.tenantId = tenantId → p.active = true → p.id ≠ a.packId → p.id ∈ ids)

variable {w : PackWorld}

theorem start_sound {store : RuleStore} (h : OneActive tenantId store) :
    ActivationSound tenantId (PackWorld.start store) :=
  ⟨h,fun packId h => by simp [PackWorld.start] at h,fun i a h => by simp [PackWorld.start] at h,
    fun i a seen ids h => by simp [PackWorld.start] at h⟩

theorem advance_sound (h : ActivationSound tenantId w) (i : ℕ) (packId : UUID7)
    {phase : ActivationPhase} (hfound : hasFound ⟨packId,phase⟩ = true →
      ∃ p ∈ w.store.packs, p.tenantId = tenantId ∧ p.id = packId)
    (hcleared : ∀ seen ids, clearedOf ⟨packId,phase⟩ = some (seen,ids) →
      seen ≤ w.activated.length ∧ (seen = w.activated.length → ∀ p ∈ w.store.packs,
        p.tenantId = tenantId → p.active = true → p.id ≠ packId → p.id ∈ ids)) :
    ActivationSound tenantId (w.advance i packId phase) := by
  refine ⟨h.one,h.last,?_,?_⟩
  · intro k a hk ha
    rcases set_get hk with ⟨-,rfl⟩ | ⟨-,hk⟩
    · exact hfound ha
    · exact h.present k a hk ha
  · intro k a seen ids hk ha
    rcases set_get hk with ⟨-,rfl⟩ | ⟨-,hk⟩
    · exact hcleared seen ids ha
    · exact h.cleared k a seen ids hk ha

theorem mem_writePacks {packId : UUID7} {ids : List UUID7} {t : Table tenantRulePacks}
    {q : RulePack} : q ∈ writePacks packId ids t ↔ ∃ p ∈ t, withActive packId ids p = q :=
  List.mem_map

theorem only_active (h : ActivationSound tenantId w) {i seen : ℕ} {packId : UUID7}
    {ids : List UUID7} (held : w.sessions[i]? = some ⟨packId,.raised seen ids⟩)
    (halone : seen = w.activated.length ∨ w.activated.getLast? = some packId) {p : RulePack}
    (hp : p ∈ w.store.packs) (htenant : p.tenantId = tenantId)
    (hactive : (withActive packId ids p).active = true) : p.id = packId := by
  by_contra hne
  simp only [withActive,beq_eq_false_iff_ne.mpr hne,Bool.false_or,Bool.and_eq_true,
    Bool.not_eq_true',List.contains_eq_mem,decide_eq_false_iff_not] at hactive
  rcases halone with hseen | hlast
  · exact hactive.2 ((h.cleared i _ seen ids held rfl).2 hseen p hp htenant hactive.1 hne)
  · obtain ⟨q,hq,hqtenant,hqid,hqactive⟩ := h.last packId hlast
    rw [h.one p hp q hq htenant hqtenant hactive.1 hqactive] at hne
    exact hne hqid

theorem activate_sound (h : ActivationSound tenantId w) {i seen : ℕ} {packId : UUID7}
    {ids : List UUID7} (held : w.sessions[i]? = some ⟨packId,.raised seen ids⟩)
    (halone : seen = w.activated.length ∨ w.activated.getLast? = some packId) :
    ActivationSound tenantId (w.activate i packId ids) := by
  have hother : ∀ (k : ℕ) a, (w.activate i packId ids).sessions[k]? = some a →
      hasFound a = true → w.sessions[k]? = some a := by
    intro k a hk ha
    rcases set_get hk with ⟨-,rfl⟩ | ⟨-,hk⟩
    · cases ha
    · exact hk
  have hstays : ∀ id, (∃ p ∈ w.store.packs, p.tenantId = tenantId ∧ p.id = id) →
      ∃ p ∈ (w.activate i packId ids).store.packs, p.tenantId = tenantId ∧ p.id = id := by
    rintro id ⟨p,hp,htenant,hid⟩
    exact ⟨_,mem_writePacks.mpr ⟨p,hp,rfl⟩,htenant,hid⟩
  refine ⟨?_,?_,?_,?_⟩
  · intro p hp q hq hptenant hqtenant hpactive hqactive
    obtain ⟨p₀,hp₀,rfl⟩ := mem_writePacks.mp hp
    obtain ⟨q₀,hq₀,rfl⟩ := mem_writePacks.mp hq
    have hpid := only_active (p := p₀) h held halone hp₀ hptenant hpactive
    have hqid := only_active (p := q₀) h held halone hq₀ hqtenant hqactive
    rw [eq_of_key hp₀ hq₀ (hpid.trans hqid.symm)]
  · intro id hid
    obtain rfl : packId = id := by simpa [PackWorld.activate] using hid
    obtain ⟨p,hp,htenant,hpid⟩ := h.present i _ held rfl
    refine ⟨_,mem_writePacks.mpr ⟨p,hp,rfl⟩,htenant,hpid,?_⟩
    have hpack : p.id = packId := hpid
    simp [withActive,hpack]
  · intro k a hk ha
    exact hstays a.packId (h.present k a (hother k a hk ha) ha)
  · intro k a n ids' hk ha
    have hfound : hasFound a = true := by
      obtain ⟨id,phase⟩ := a
      cases phase with
      | cleared seen ids => rfl
      | raised seen ids => rfl
      | begun => cases ha
      | found => cases ha
      | committed => cases ha
      | ended => cases ha
    have hle := (h.cleared k a n ids' (hother k a hk hfound) ha).1
    have hlength : (w.activate i packId ids).activated.length = w.activated.length+1 := by
      simp [PackWorld.activate]
    exact ⟨by omega,fun hn => by omega⟩

theorem step_sound (op : ActivationOp) (w : PackWorld) (hg : CommitsAlone op w)
    (h : ActivationSound tenantId w) :
    ActivationSound tenantId (activationStep tenantId op w) := by
  have heffect := step_effect tenantId op w
  generalize activationStep tenantId op w = w' at heffect
  cases heffect with
  | unchanged => exact h
  | begun packId =>
    refine ⟨h.one,h.last,?_,?_⟩
    · intro k a hk ha
      rcases snoc_get hk with hk | ⟨-,rfl⟩
      · exact h.present k a hk ha
      · cases ha
    · intro k a seen ids hk ha
      rcases snoc_get hk with hk | ⟨-,rfl⟩
      · exact h.cleared k a seen ids hk ha
      · cases ha
  | found i packId present =>
    apply advance_sound h
    · intro _
      obtain ⟨p,hp⟩ := Option.isSome_iff_exists.mp present
      obtain ⟨hmem,hcond⟩ := selectRow_some hp
      simp only [Bool.and_eq_true,beq_iff_eq] at hcond
      exact ⟨p,hmem,hcond⟩
    · intro seen ids hc
      cases hc
  | cleared i packId held =>
    apply advance_sound h
    · intro _
      exact h.present i _ held rfl
    · intro seen ids hc
      cases hc
      refine ⟨Nat.le_refl _,fun _ p hp htenant hactive hne => ?_⟩
      apply List.mem_map_of_mem
      rw [otherActive,mem_selectRows]
      simp [hp,htenant,hactive,hne]
  | raised i packId seen ids held =>
    apply advance_sound h
    · intro _
      exact h.present i _ held rfl
    · intro n ids' hc
      cases hc
      exact h.cleared i _ seen ids held rfl
  | committed i packId seen ids held =>
    simp only [CommitsAlone,held] at hg
    exact activate_sound h held hg
  | ended op i packId =>
    apply advance_sound h
    · intro ha
      cases ha
    · intro seen ids hc
      cases hc

/-- In a run whose activations are all committed alone the tenant has at most one active pack,
and it is the pack of the last activation. -/
theorem last_activated (tenantId : UUID7) (store : RuleStore) (hone : OneActive tenantId store)
    (ops : List ActivationOp)
    (hg : Along (activationStep tenantId) CommitsAlone ops (PackWorld.start store)) :
    OneActive tenantId (run (activationStep tenantId) ops (PackWorld.start store)).store ∧
    ∀ packId, (run (activationStep tenantId) ops (PackWorld.start store)).activated.getLast? =
      some packId → ∃ p,
        activePack tenantId (run (activationStep tenantId) ops (PackWorld.start store)).store =
          some p ∧ p.id = packId := by
  have hsound := guarded_invariant step_sound ops _ hg (start_sound hone)
  refine ⟨hsound.one,?_⟩
  intro packId hlast
  obtain ⟨p,hp,htenant,hid,hactive⟩ := hsound.last packId hlast
  exact ⟨p,activePack_of_one hsound.one hp htenant hactive,hid⟩

def sampleTenant : UUID7 := ⟨0,2,0⟩

def leasePack : RulePack := ⟨⟨0,1,1⟩,sampleTenant,"lease",1,false,by decide⟩

def salePack : RulePack := ⟨⟨0,1,2⟩,sampleTenant,"sale",1,false,by decide⟩

/-- Two packs of one tenant, none of them active. -/
def sampleStore : RuleStore := ⟨⟨[leasePack,salePack],by decide⟩,Table.empty,Table.empty⟩

theorem sale_active :
    OneActive sampleTenant (run (activationStep sampleTenant)
      [.begin leasePack.id,.select 0,.clear 0,.raise 0,.commit 0,
       .begin salePack.id,.select 1,.clear 1,.raise 1,.commit 1]
      (PackWorld.start sampleStore)).store ∧
    ∃ p, activePack sampleTenant (run (activationStep sampleTenant)
      [.begin leasePack.id,.select 0,.clear 0,.raise 0,.commit 0,
       .begin salePack.id,.select 1,.clear 1,.raise 1,.commit 1]
      (PackWorld.start sampleStore)).store = some p ∧ p.id = salePack.id := by
  have hone : OneActive sampleTenant sampleStore := by
    intro p hp q hq _ _ hactive _
    have hmem : p ∈ [leasePack,salePack] := hp
    obtain rfl | rfl : p = leasePack ∨ p = salePack := by simpa using hmem
    · cases hactive
    · cases hactive
  have h := last_activated sampleTenant sampleStore hone
    [.begin leasePack.id,.select 0,.clear 0,.raise 0,.commit 0,
     .begin salePack.id,.select 1,.clear 1,.raise 1,.commit 1] (by decide)
  exact ⟨h.1,h.2 salePack.id (by decide)⟩

/-- Both activations clear before either is committed. -/
def racingActivations : List ActivationOp :=
  [.begin leasePack.id,.begin salePack.id,.select 0,.select 1,.clear 0,.clear 1,.raise 0,
   .raise 1,.commit 0,.commit 1]

theorem racing_active :
    (run (activationStep sampleTenant) racingActivations
      (PackWorld.start sampleStore)).store.packs.rows.map (fun p => (p.id,p.active)) =
        [(leasePack.id,true),(salePack.id,true)] ∧
    ¬ OneActive sampleTenant (run (activationStep sampleTenant) racingActivations
      (PackWorld.start sampleStore)).store := by
  have hrows : (run (activationStep sampleTenant) racingActivations
      (PackWorld.start sampleStore)).store.packs.rows =
        [{leasePack with active := true},{salePack with active := true}] := by decide
  constructor
  · rw [hrows]
    decide
  · intro h
    have heq := h {leasePack with active := true} (by rw [mem_rows,hrows]; simp)
      {salePack with active := true} (by rw [mem_rows,hrows]; simp) rfl rfl rfl rfl
    revert heq
    decide

end LawyerAgent.RulePackActivation
