import Mathlib.Data.List.Induction
import Mathlib.Data.List.Pairwise
import Mathlib.Data.Set.Lattice
import Mathlib.Order.Bounds.Basic
import Mathlib.Order.CompletePartialOrder

/-!
# Clusters of touching items

Items that touch are joined, and so are the joins that touch. One pass takes a
new item along the joins made so far: what touched only the grown item later in
the pass is left behind. The items that the passes keep apart in every order are
those where no cluster is reached by a join alone.
-/

set_option autoImplicit false

namespace Merging

variable {α : Type} [SemilatticeSup α]

/-- Touching is symmetric, survives growth, and what touches anything touches itself. -/
structure Touching (touches : α → α → Prop) : Prop where
  symm : ∀ {a b}, touches a b → touches b a
  grow : ∀ {a a' b}, touches a b → a ≤ a' → touches a' b
  self : ∀ {a b}, touches a b → touches a a

variable {touches : α → α → Prop}

theorem Touching.grow_both (h : Touching touches) {a a' b b' : α} (hab : touches a b)
    (ha : a ≤ a') (hb : b ≤ b') : touches a' b' :=
  h.symm (h.grow (h.symm (h.grow hab ha)) hb)

/-- Items that are joined one with another, and their join. -/
inductive Cluster (touches : α → α → Prop) : Set α → α → Prop
  | single (a : α) : Cluster touches {a} a
  | merge {S T : Set α} {r s : α} : Cluster touches S r → Cluster touches T s → touches r s →
      Cluster touches (S ∪ T) (r ⊔ s)

namespace Cluster

variable {S T : Set α} {r s : α}

theorem nonempty (h : Cluster touches S r) : S.Nonempty := by
  induction h with
  | single a => exact Set.singleton_nonempty a
  | merge _ _ _ ih _ => exact ih.inl

theorem isLUB (h : Cluster touches S r) : IsLUB S r := by
  induction h with
  | single a => exact isLUB_singleton
  | merge _ _ _ ihS ihT => exact ihS.union ihT

theorem le (h : Cluster touches S r) {a : α} (ha : a ∈ S) : a ≤ r := h.isLUB.1 ha

theorem join_unique (h : Cluster touches S r) (h' : Cluster touches S s) : r = s :=
  h.isLUB.unique h'.isLUB

theorem of_thin (ht : Touching touches) (h : Cluster touches S r) {a : α} (ha : a ∈ S)
    (hthin : ¬touches a a) : S = {a} ∧ r = a := by
  induction h with
  | single b =>
    have hab : a = b := ha
    exact ⟨by rw [hab],hab.symm⟩
  | merge hS hT htouch ihS ihT =>
    exfalso
    rcases ha with ha | ha
    · obtain ⟨-,rfl⟩ := ihS ha
      exact hthin (ht.self htouch)
    · obtain ⟨-,rfl⟩ := ihT ha
      exact hthin (ht.self (ht.symm htouch))

theorem of_thin_join (ht : Touching touches) (h : Cluster touches S r)
    (hthin : ¬touches r r) : S = {r} := by
  cases h with
  | single => rfl
  | merge hS hT htouch => exact absurd (ht.grow_both htouch le_sup_left le_sup_right) hthin

theorem merge_or_equal (ht : Touching touches) (hS : Cluster touches S r)
    (hT : Cluster touches T s) (h : touches r s ∨ r = s) : Cluster touches (S ∪ T) (r ⊔ s) := by
  by_cases htouch : touches r s
  · exact .merge hS hT htouch
  · have hsame : r = s := h.resolve_left htouch
    subst hsame
    rw [hS.of_thin_join ht htouch,hT.of_thin_join ht htouch,Set.union_self,sup_idem]
    exact .single r

end Cluster

/-- Groups with no item in common, where the first touches no item of the second. -/
def Apart (touches : α → α → Prop) (p q : Set α × α) : Prop :=
  Disjoint p.1 q.1 ∧ ∀ b ∈ q.1, ¬touches b p.2

theorem apart_union {p q r : Set α × α} (hq : Apart touches p q) (hr : Apart touches p r) :
    Apart touches p (q.1 ∪ r.1,q.2 ⊔ r.2) := by
  refine ⟨hq.1.union_right hr.1,?_⟩
  rintro b (hb | hb)
  · exact hq.2 b hb
  · exact hr.2 b hb

variable {current p : Set α × α} {ps : List (Set α × α)} {items : List α}

section Passes
variable (touches)
variable [DecidableRel touches] [DecidableEq α]

/-- The new item grows over the joins in their order; the others are left. -/
def pass : α → List α → α × List α
  | current, [] => (current,[])
  | current, r::rs =>
    if touches r current ∨ r = current then pass (r ⊔ current) rs
    else ((pass current rs).1,r::(pass current rs).2)

def place (regions : List α) (item : α) : List α :=
  (pass touches item regions).2++[(pass touches item regions).1]

def regions (items : List α) : List α := items.foldl (place touches) []

/-- The same pass with the items behind each join. -/
def groupPass : Set α × α → List (Set α × α) → (Set α × α) × List (Set α × α)
  | current, [] => (current,[])
  | current, p::ps =>
    if touches p.2 current.2 ∨ p.2 = current.2 then groupPass (p.1 ∪ current.1,p.2 ⊔ current.2) ps
    else ((groupPass current ps).1,p::(groupPass current ps).2)

def groupPlace (groups : List (Set α × α)) (item : α) : List (Set α × α) :=
  (groupPass touches ({item},item) groups).2++[(groupPass touches ({item},item) groups).1]

def groups (items : List α) : List (Set α × α) := items.foldl (groupPlace touches) []

variable {touches}

theorem groupPass_regions (current : Set α × α) (ps : List (Set α × α)) :
    pass touches current.2 (ps.map Prod.snd) =
      ((groupPass touches current ps).1.2,(groupPass touches current ps).2.map Prod.snd) := by
  induction ps generalizing current with
  | nil => rfl
  | cons p ps ih =>
    rw [List.map_cons,pass,groupPass]
    by_cases h : touches p.2 current.2 ∨ p.2 = current.2
    · rw [if_pos h,if_pos h]
      exact ih (p.1 ∪ current.1,p.2 ⊔ current.2)
    · rw [if_neg h,if_neg h,ih]
      rfl

theorem groups_regions (items : List α) :
    regions touches items = (groups touches items).map Prod.snd := by
  induction items using List.reverseRecOn with
  | nil => rfl
  | append_singleton items a ih =>
    rw [regions,groups,List.foldl_append,List.foldl_append]
    change place touches (regions touches items) a =
      (groupPlace touches (groups touches items) a).map Prod.snd
    rw [ih,place,groupPlace,groupPass_regions ({a},a),List.map_append]
    rfl

theorem groupPass_cluster (ht : Touching touches) (hcurrent : Cluster touches current.1 current.2)
    (hps : ∀ p ∈ ps, Cluster touches p.1 p.2) :
    Cluster touches (groupPass touches current ps).1.1 (groupPass touches current ps).1.2 := by
  induction ps generalizing current with
  | nil => exact hcurrent
  | cons p ps ih =>
    have hp := hps p List.mem_cons_self
    have hrest : ∀ q ∈ ps, Cluster touches q.1 q.2 := fun q hq => hps q (List.mem_cons_of_mem p hq)
    rw [groupPass]
    split
    · next h => exact ih (hp.merge_or_equal ht hcurrent h) hrest
    · exact ih hcurrent hrest

theorem groupPass_sublist (current : Set α × α) (ps : List (Set α × α)) :
    (groupPass touches current ps).2.Sublist ps := by
  induction ps generalizing current with
  | nil => exact .slnil
  | cons p ps ih =>
    rw [groupPass]
    split
    · exact (ih _).cons p
    · exact (ih current).cons_cons p

theorem groupPass_items (current : Set α × α) (ps : List (Set α × α)) (a : α) :
    (a ∈ (groupPass touches current ps).1.1 ∨ ∃ p ∈ (groupPass touches current ps).2, a ∈ p.1) ↔
      a ∈ current.1 ∨ ∃ p ∈ ps, a ∈ p.1 := by
  induction ps generalizing current with
  | nil => simp [groupPass]
  | cons p ps ih =>
    rw [groupPass]
    split
    · rw [ih]
      simp only [Set.mem_union,List.mem_cons,or_and_right,exists_or,exists_eq_left]
      tauto
    · simp only [List.mem_cons,or_and_right,exists_or,exists_eq_left]
      rw [or_left_comm,ih current,or_left_comm]

theorem groupPass_left (ht : Touching touches) (hp : p ∈ (groupPass touches current ps).2) :
    ¬touches p.2 current.2 ∧ p.2 ≠ current.2 := by
  induction ps generalizing current with
  | nil => cases hp
  | cons q ps ih =>
    rw [groupPass] at hp
    by_cases h : touches q.2 current.2 ∨ q.2 = current.2
    · rw [if_pos h] at hp
      obtain ⟨hno,hne⟩ := ih hp
      have hfree : ¬touches p.2 current.2 := fun htouch =>
        hno (ht.grow_both htouch le_rfl le_sup_right)
      refine ⟨hfree,fun hsame => ?_⟩
      by_cases htouch : touches q.2 current.2
      · have hself := ht.self (ht.symm htouch)
        rw [← hsame] at hself
        exact hfree (hsame ▸ hself)
      · have hq : q.2 = current.2 := h.resolve_left htouch
        exact hne (by dsimp only; rw [hq,sup_idem,hsame])
    · rw [if_neg h] at hp
      rcases List.mem_cons.mp hp with rfl | hp
      · exact not_or.mp h
      · exact ih hp

theorem groupPass_apart_all (hcurrent : Apart touches p current) (hps : ∀ q ∈ ps, Apart touches p
      q) :
    Apart touches p (groupPass touches current ps).1 := by
  induction ps generalizing current with
  | nil => exact hcurrent
  | cons q ps ih =>
    have hq := hps q List.mem_cons_self
    have hrest : ∀ r ∈ ps, Apart touches p r := fun r hr => hps r (List.mem_cons_of_mem q hr)
    rw [groupPass]
    split
    · exact ih (apart_union hq hcurrent) hrest
    · exact ih hcurrent hrest

/-- What is left is apart from the grown item, too: it was compared after every
join that it does not stand before. -/
theorem groupPass_apart (ht : Touching touches) (hclusters : ∀ q ∈ ps, Cluster touches q.1 q.2)
    (hps : ps.Pairwise (Apart touches)) (hp : p ∈ (groupPass touches current ps).2)
    (hcurrent : Apart touches p current) :
    Apart touches p (groupPass touches current ps).1 := by
  induction ps generalizing current with
  | nil => cases hp
  | cons q ps ih =>
    obtain ⟨hfirst,hrest⟩ := List.pairwise_cons.mp hps
    have hlater : ∀ r ∈ ps, Cluster touches r.1 r.2 := fun r hr =>
      hclusters r (List.mem_cons_of_mem q hr)
    rw [groupPass] at hp ⊢
    by_cases h : touches q.2 current.2 ∨ q.2 = current.2
    · rw [if_pos h] at hp ⊢
      have hmem : p ∈ ps := (groupPass_sublist _ ps).subset hp
      have hfree := (groupPass_left ht hp).1
      have hq : Apart touches p q := by
        refine ⟨(hfirst p hmem).1.symm,fun b hb htouch => hfree ?_⟩
        have hbq : b ≤ q.2 := (hclusters q List.mem_cons_self).le hb
        exact ht.symm (ht.grow htouch (hbq.trans le_sup_left))
      exact ih hlater hrest hp (apart_union hq hcurrent)
    · rw [if_neg h] at hp ⊢
      rcases List.mem_cons.mp hp with rfl | hp
      · exact groupPass_apart_all hcurrent hfirst
      · exact ih hlater hrest hp hcurrent

/-- Every item is in one group, and every group is a cluster that touches no
item of the groups behind it. -/
structure Grouped (touches : α → α → Prop) (items : List α) (ps : List (Set α × α)) : Prop where
  clusters : ∀ p ∈ ps, Cluster touches p.1 p.2
  cover : ∀ a, a ∈ items ↔ ∃ p ∈ ps, a ∈ p.1
  apart : ps.Pairwise (Apart touches)

theorem grouped_place (ht : Touching touches) (h : Grouped touches items ps) (a : α) :
    Grouped touches (items++[a]) (groupPlace touches ps a) := by
  have hsub : (groupPass touches ({a},a) ps).2.Sublist ps := groupPass_sublist ({a},a) ps
  have hsingle : Cluster touches {a} a := .single a
  constructor
  · intro p hp
    rcases List.mem_append.mp hp with hp | hp
    · exact h.clusters p (hsub.subset hp)
    · rw [List.mem_singleton.mp hp]
      exact groupPass_cluster ht hsingle h.clusters
  · intro b
    have hitems : (b ∈ (groupPass touches ({a},a) ps).1.1 ∨
        ∃ p ∈ (groupPass touches ({a},a) ps).2, b ∈ p.1) ↔ b ∈ ({a} : Set α) ∨ ∃ p ∈ ps, b ∈ p.1 :=
      groupPass_items ({a},a) ps b
    rw [Set.mem_singleton_iff] at hitems
    rw [groupPlace,List.mem_append,List.mem_singleton,h.cover]
    simp only [List.mem_append,List.mem_singleton,or_and_right,exists_or,exists_eq_left]
    rw [or_comm,← hitems,or_comm]
  · rw [groupPlace,List.pairwise_append]
    refine ⟨h.apart.sublist hsub,List.pairwise_singleton _ _,?_⟩
    intro p hp q hq
    rw [List.mem_singleton.mp hq]
    refine groupPass_apart ht h.clusters h.apart hp ?_
    obtain ⟨hfree,hne⟩ := groupPass_left ht hp
    have hcluster := h.clusters p (hsub.subset hp)
    have hout : a ∉ p.1 := by
      intro ha
      by_cases hself : touches a a
      · exact hfree (ht.grow hself (hcluster.le ha))
      · exact hne (hcluster.of_thin ht ha hself).2
    refine ⟨Set.disjoint_singleton_right.mpr hout,?_⟩
    intro b hb htouch
    rw [Set.mem_singleton_iff.mp hb] at htouch
    exact hfree (ht.symm htouch)

theorem grouped_groups (ht : Touching touches) (items : List α) :
    Grouped touches items (groups touches items) := by
  induction items using List.reverseRecOn with
  | nil => exact ⟨by simp [groups],by simp [groups],.nil⟩
  | append_singleton items a ih =>
    rw [groups,List.foldl_append]
    exact grouped_place ht ih a

end Passes

def Within (items : List α) (S : Set α) : Prop := ∀ a ∈ S, a ∈ items

/-- A cluster whose join no further item touches is touched by no cluster that
goes beyond it. -/
def Separable (touches : α → α → Prop) (items : List α) : Prop :=
  ∀ S r, Cluster touches S r → Within items S → (∀ b ∈ items, touches b r → b ∈ S) →
    ∀ T s, Cluster touches T s → Within items T → touches s r → T ⊆ S

def Whole (touches : α → α → Prop) (items : List α) (p : Set α × α) : Prop :=
  ∀ T s, Cluster touches T s → Within items T → touches s p.2 → T ⊆ p.1

theorem Grouped.within (h : Grouped touches items ps) (hp : p ∈ ps) :
    Within items p.1 := fun a ha => (h.cover a).mpr ⟨p,hp,ha⟩

omit [SemilatticeSup α] in
theorem apart_not_subset {p q : Set α × α} (hdisjoint : Disjoint p.1 q.1) (hne : p.1.Nonempty) :
    ¬p.1 ⊆ q.1 := by
  intro hsub
  obtain ⟨a,ha⟩ := hne
  exact Set.disjoint_left.mp hdisjoint ha (hsub ha)

theorem Grouped.whole_at (ht : Touching touches) (h : Grouped touches items ps)
    (hseparable : Separable touches items) {front back : List (Set α × α)}
    (hps : ps = front++p::back) : Whole touches items p := by
  induction hlength : front.length using Nat.strong_induction_on generalizing front back p with
  | _ n ih =>
    have hpm : p ∈ ps := by simp [hps]
    have hcluster := h.clusters p hpm
    refine hseparable p.1 p.2 hcluster (h.within hpm) ?_
    intro b hb htouch
    obtain ⟨q,hq,hbq⟩ := (h.cover b).mp hb
    have hapart := h.apart
    rw [hps,List.pairwise_append,List.pairwise_cons] at hapart
    obtain ⟨-,⟨hback,-⟩,hfront⟩ := hapart
    rw [hps,List.mem_append,List.mem_cons] at hq
    rcases hq with hq | rfl | hq
    · obtain ⟨earlier,between,rfl⟩ := List.append_of_mem hq
      have hsplit : ps = earlier++q::(between++p::back) := by
        rw [hps,List.append_assoc,List.cons_append]
      have hshort : earlier.length < n := by
        rw [← hlength,List.length_append,List.length_cons]
        omega
      have hwhole := ih earlier.length hshort hsplit rfl
      have hqm : q ∈ ps := by simp [hsplit]
      have htouches : touches p.2 q.2 :=
        ht.symm (ht.grow htouch ((h.clusters q hqm).le hbq))
      have hsub := hwhole p.1 p.2 hcluster (h.within hpm) htouches
      have hdisjoint := (hfront q hq p List.mem_cons_self).1
      exact absurd hsub (apart_not_subset hdisjoint.symm hcluster.nonempty)
    · exact hbq
    · exact absurd htouch ((hback q hq).2 b hbq)

theorem Grouped.whole (ht : Touching touches) (h : Grouped touches items ps)
    (hseparable : Separable touches items) :
    ∀ p ∈ ps, Whole touches items p := by
  intro p hp
  obtain ⟨front,back,hps⟩ := List.append_of_mem hp
  exact h.whole_at ht hseparable hps

def Free (touches : α → α → Prop) (regions : List α) : Prop :=
  regions.Pairwise fun r s => ¬touches r s

theorem Grouped.free (ht : Touching touches) (h : Grouped touches items ps)
    (hseparable : Separable touches items) :
    Free touches (ps.map Prod.snd) := by
  rw [Free,List.pairwise_map]
  refine h.apart.imp_of_mem ?_
  intro p q hp hq hapart htouch
  have hsub := h.whole ht hseparable p hp q.1 q.2 (h.clusters q hq) (h.within hq) (ht.symm htouch)
  exact apart_not_subset hapart.1.symm (h.clusters q hq).nonempty hsub

theorem Grouped.nodup (ht : Touching touches) (h : Grouped touches items ps)
    (hfree : Free touches (ps.map Prod.snd)) :
    (ps.map Prod.snd).Nodup := by
  rw [Free,List.pairwise_map] at hfree
  rw [List.Nodup,List.pairwise_map]
  refine (h.apart.and hfree).imp_of_mem ?_
  rintro p q hp hq ⟨hapart,hno⟩ hsame
  have htouch : ¬touches p.2 p.2 := by rwa [← hsame] at hno
  have hpset := (h.clusters p hp).of_thin_join ht htouch
  rw [hsame] at htouch
  have hqset := (h.clusters q hq).of_thin_join ht htouch
  have hsub : p.1 ⊆ q.1 := by rw [hpset,hqset,hsame]
  exact apart_not_subset hapart.1 (h.clusters p hp).nonempty hsub

theorem Grouped.join_mem (ht : Touching touches) {items others : List α}
    {ps qs : List (Set α × α)} (h : Grouped touches items ps) (h' : Grouped touches others qs)
    (hsame : ∀ a, a ∈ items ↔ a ∈ others) (hseparable : Separable touches items)
    (hseparable' : Separable touches others) {r : α} (hr : r ∈ ps.map Prod.snd) :
    r ∈ qs.map Prod.snd := by
  obtain ⟨p,hp,rfl⟩ := List.mem_map.mp hr
  have hpc := h.clusters p hp
  obtain ⟨a,ha⟩ := hpc.nonempty
  obtain ⟨q,hq,haq⟩ := (h'.cover a).mp ((hsame a).mp (h.within hp a ha))
  have hqc := h'.clusters q hq
  refine List.mem_map.mpr ⟨q,hq,?_⟩
  by_cases hself : touches a a
  · have htouch : touches p.2 q.2 := ht.grow_both hself (hpc.le ha) (hqc.le haq)
    have hpq : p.1 ⊆ q.1 := h'.whole ht hseparable' q hq p.1 p.2 hpc
      (fun b hb => (hsame b).mp (h.within hp b hb)) htouch
    have hqp : q.1 ⊆ p.1 := h.whole ht hseparable p hp q.1 q.2 hqc
      (fun b hb => (hsame b).mpr (h'.within hq b hb)) (ht.symm htouch)
    rw [hpq.antisymm hqp] at hpc
    exact hqc.join_unique hpc
  · rw [(hpc.of_thin ht ha hself).2,(hqc.of_thin ht haq hself).2]

theorem Grouped.perm (ht : Touching touches) {items others : List α} {ps qs : List (Set α × α)}
    (h : Grouped touches items ps) (h' : Grouped touches others qs)
    (hsame : ∀ a, a ∈ items ↔ a ∈ others) (hseparable : Separable touches items) :
    (ps.map Prod.snd).Perm (qs.map Prod.snd) := by
  have hseparable' : Separable touches others := by
    intro S r hS hin hall T s hT hTin
    refine hseparable S r hS (fun a ha => (hsame a).mpr (hin a ha))
      (fun b hb => hall b ((hsame b).mp hb)) T s hT fun a ha => (hsame a).mpr (hTin a ha)
  rw [List.perm_ext_iff_of_nodup (h.nodup ht (h.free ht hseparable))
    (h'.nodup ht (h'.free ht hseparable'))]
  intro r
  exact ⟨h.join_mem ht h' hsame hseparable hseparable',
    h'.join_mem ht h (fun a => (hsame a).symm) hseparable' hseparable⟩

theorem Grouped.one_group (h : Grouped touches items ps) {p q : Set α × α} (hp : p ∈ ps)
    (hq : q ∈ ps) {a : α} (hap : a ∈ p.1) (haq : a ∈ q.1) :
    p = q := by
  by_contra hne
  have hsymm : Std.Symm fun p q : Set α × α => Disjoint p.1 q.1 := ⟨fun _ _ hpq => hpq.symm⟩
  have hdisjoint : ps.Pairwise fun p q => Disjoint p.1 q.1 := h.apart.imp And.left
  exact Set.disjoint_left.mp (hdisjoint.forall hp hq hne) hap haq

theorem Free.one_group (ht : Touching touches) (hfree : Free touches (ps.map Prod.snd))
    {p q : Set α × α} (hp : p ∈ ps) (hq : q ∈ ps) (htouch : touches p.2 q.2) : p = q := by
  by_contra hne
  rw [Free,List.pairwise_map] at hfree
  have hsymm : Std.Symm fun p q : Set α × α => ¬touches p.2 q.2 :=
    ⟨fun _ _ hno h => hno (ht.symm h)⟩
  exact hfree.forall hp hq hne htouch

theorem Grouped.cluster_in (ht : Touching touches) (h : Grouped touches items ps)
    (hfree : Free touches (ps.map Prod.snd)) {S : Set α} {r : α} (hS : Cluster touches S r)
    (hin : Within items S) : ∃ p ∈ ps, S ⊆ p.1 ∧ r ≤ p.2 := by
  induction hS with
  | single a =>
    obtain ⟨p,hp,ha⟩ := (h.cover a).mp (hin a rfl)
    exact ⟨p,hp,Set.singleton_subset_iff.mpr ha,(h.clusters p hp).le ha⟩
  | merge _ _ htouch ihS ihT =>
    obtain ⟨p,hp,hSp,hrp⟩ := ihS fun a ha => hin a (Or.inl ha)
    obtain ⟨q,hq,hTq,hsq⟩ := ihT fun a ha => hin a (Or.inr ha)
    have hsame : p = q := hfree.one_group ht hp hq (ht.grow_both htouch hrp hsq)
    subst hsame
    exact ⟨p,hp,Set.union_subset hSp hTq,sup_le hrp hsq⟩

section Orders
variable [DecidableRel touches] [DecidableEq α]

theorem groupPlace_head {a : α} (hfree : ¬touches p.2 a) (hne : p.2 ≠ a) (ps : List (Set α × α)) :
    ∃ rest, groupPlace touches (p::ps) a = p::rest := by
  rw [groupPlace,groupPass,if_neg (not_or.mpr ⟨hfree,hne⟩)]
  exact ⟨_,rfl⟩

theorem groups_head (h : ∀ a ∈ items, ¬touches p.2 a ∧ p.2 ≠ a) (ps : List (Set α × α)) :
    ∃ rest, items.foldl (groupPlace touches) (p::ps) = p::rest := by
  induction items generalizing ps with
  | nil => exact ⟨ps,rfl⟩
  | cons a items ih =>
    obtain ⟨hfree,hne⟩ := h a List.mem_cons_self
    obtain ⟨rest,hrest⟩ := groupPlace_head hfree hne ps
    rw [List.foldl_cons,hrest]
    exact ih (fun b hb => h b (List.mem_cons_of_mem a hb)) rest

/-- Items that are kept apart in every order are separable: with the items of a
cluster first, its join would stay behind. -/
theorem separable_of_free (ht : Touching touches)
    (h : ∀ order, order.Perm items → Free touches (regions touches order)) :
    Separable touches items := by
  classical
  intro S r hS hin hall T s hT hTin htouch
  have hperm : (items.filter (fun a => decide (a ∈ S))++
      items.filter (fun a => !decide (a ∈ S))).Perm items := List.filter_append_perm _ _
  have hfirst := grouped_groups ht (items.filter fun a => decide (a ∈ S))
  obtain ⟨a,haS⟩ := hS.nonempty
  have ha : a ∈ items.filter fun a => decide (a ∈ S) :=
    List.mem_filter.mpr ⟨hin a haS,decide_eq_true haS⟩
  obtain ⟨q,hsome,-⟩ := (hfirst.cover a).mp ha
  obtain ⟨p,ps,hps⟩ := List.exists_cons_of_ne_nil (List.ne_nil_of_mem hsome)
  have hpm : p ∈ groups touches (items.filter fun a => decide (a ∈ S)) := by simp [hps]
  have hpc := hfirst.clusters p hpm
  have hpS : p.1 ⊆ S := fun b hb =>
    of_decide_eq_true (List.mem_filter.mp (hfirst.within hpm b hb)).2
  have hpr : p.2 ≤ r := hpc.isLUB.2 fun b hb => hS.le (hpS hb)
  have hlater : ∀ b ∈ items.filter fun a => !decide (a ∈ S), ¬touches p.2 b ∧ p.2 ≠ b := by
    intro b hb
    obtain ⟨hbitems,hbS⟩ := List.mem_filter.mp hb
    have hbS : b ∉ S := by simpa using hbS
    have hno : ¬touches p.2 b := fun h => hbS (hall b hbitems (ht.symm (ht.grow h hpr)))
    refine ⟨hno,?_⟩
    rintro rfl
    have hself := hpc.of_thin_join ht hno
    exact hbS (hpS (hself ▸ rfl))
  obtain ⟨rest,hrest⟩ := groups_head hlater ps
  have hgroups : groups touches (items.filter (fun a => decide (a ∈ S))++
      items.filter (fun a => !decide (a ∈ S))) = p::rest := by
    rw [groups,List.foldl_append]
    change List.foldl _ (groups touches _) _ = _
    rw [hps,hrest]
  have hgrouped := grouped_groups ht (items.filter (fun a => decide (a ∈ S))++
      items.filter (fun a => !decide (a ∈ S)))
  have hfree := h _ hperm
  rw [groups_regions] at hfree
  rw [hgroups] at hgrouped hfree
  have horder : ∀ {U : Set α}, Within items U → Within (items.filter (fun a => decide (a ∈ S))++
      items.filter (fun a => !decide (a ∈ S))) U := fun hU b hb => hperm.mem_iff.mpr (hU b hb)
  have hapart := (List.pairwise_cons.mp hgrouped.apart).1
  rw [Free,List.map_cons,List.pairwise_cons] at hfree
  have hSp : S ⊆ p.1 := by
    obtain ⟨q,hq,hSq,-⟩ := hgrouped.cluster_in ht (List.pairwise_cons.mpr hfree) hS (horder hin)
    rcases List.mem_cons.mp hq with rfl | hq
    · exact hSq
    · exact absurd (hpS.trans hSq) (apart_not_subset (hapart q hq).1 hpc.nonempty)
  have hrp : r ≤ p.2 := hS.isLUB.2 fun b hb => hpc.le (hSp hb)
  obtain ⟨q,hq,hTq,hsq⟩ := hgrouped.cluster_in ht (List.pairwise_cons.mpr hfree) hT (horder hTin)
  rcases List.mem_cons.mp hq with rfl | hq
  · exact hTq.trans hpS
  · exact absurd (ht.symm (ht.grow_both htouch hsq hrp)) (hfree.1 _ (List.mem_map_of_mem hq))

end Orders

end Merging
