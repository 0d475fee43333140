import LawyerAgent.Forests.Folds

/-!
# Isomorphic forests

A bijection of the nodes that keeps labels and parents. Isomorphic forests have
the same values at their roots. Conversely, where no two siblings and no two
roots have the same value, equal values at the roots match every node with one
other node.
-/

set_option autoImplicit false

namespace Forests
open Relation

variable {N I L T : Type} [DecidableEq I]

omit [DecidableEq I] in
structure Isomorphism (R : Reading N I L) (F G : List N) (f : N → N) : Prop where
  bijective : Set.BijOn f {c | c ∈ F} {d | d ∈ G}
  labels : ∀ c ∈ F, R.label (f c) = R.label c
  roots : ∀ c ∈ F, R.parent (f c) = none ↔ R.parent c = none
  parents : ∀ c ∈ F, ∀ p ∈ F,
    R.parent (f c) = some (R.ident (f p)) ↔ R.parent c = some (R.ident p)

omit [DecidableEq I] in
def Isomorphic (R : Reading N I L) (F G : List N) : Prop := ∃ f, Isomorphism R F G f

variable {R : Reading N I L} {F G : List N} {node : L → List T → T} {f : N → N}

theorem image_perm {l r : List N} (hl : l.Nodup) (hr : r.Nodup) (hf : Set.InjOn f {c | c ∈ l})
    (hmem : ∀ d, d ∈ r ↔ ∃ c ∈ l, f c = d) : (l.map f).Perm r := by
  apply (List.perm_ext_iff_of_nodup (hl.map_on fun a ha b hb => hf ha hb) hr).mpr
  intro d
  rw [hmem d,List.mem_map]

theorem roots_image (hF : Forest R F) (hG : Forest R G) (h : Isomorphism R F G f) :
    ((roots R F).map f).Perm (roots R G) := by
  apply image_perm ((forest_nodup hF).filter _) ((forest_nodup hG).filter _)
  · intro a ha b hb hab
    exact h.bijective.injOn (mem_roots.mp ha).1 (mem_roots.mp hb).1 hab
  · intro d
    constructor
    · intro hd
      obtain ⟨hmem,hparent⟩ := mem_roots.mp hd
      obtain ⟨c,hc,rfl⟩ := h.bijective.surjOn hmem
      exact ⟨c,mem_roots.mpr ⟨hc,(h.roots c hc).mp hparent⟩,rfl⟩
    · intro hd
      obtain ⟨c,hc,rfl⟩ := hd
      obtain ⟨hmem,hparent⟩ := mem_roots.mp hc
      exact mem_roots.mpr ⟨h.bijective.mapsTo hmem,(h.roots c hmem).mpr hparent⟩

theorem children_image (hF : Forest R F) (hG : Forest R G) (h : Isomorphism R F G f) {p : N}
    (hp : p ∈ F) :
    ((children R F (R.ident p)).map f).Perm (children R G (R.ident (f p))) := by
  apply image_perm ((forest_nodup hF).filter _) ((forest_nodup hG).filter _)
  · intro a ha b hb hab
    exact h.bijective.injOn (mem_children.mp ha).1 (mem_children.mp hb).1 hab
  · intro d
    constructor
    · intro hd
      obtain ⟨hmem,hparent⟩ := mem_children.mp hd
      obtain ⟨c,hc,rfl⟩ := h.bijective.surjOn hmem
      exact ⟨c,mem_children.mpr ⟨hc,(h.parents c hc p hp).mp hparent⟩,rfl⟩
    · intro hd
      obtain ⟨c,hc,rfl⟩ := hd
      obtain ⟨hmem,hparent⟩ := mem_children.mp hc
      exact mem_children.mpr ⟨h.bijective.mapsTo hmem,(h.parents c hmem p hp).mpr hparent⟩

theorem fold_image (hF : Forest R F) (hG : Forest R G) (h : Isomorphism R F G f)
    (hnode : Unordered node) : ∀ c ∈ F, fold R node F c = fold R node G (f c) := by
  apply forest_induct hF (P := fun c => fold R node F c = fold R node G (f c))
  intro c hc ih
  have hmap : (children R F (R.ident c)).map (fold R node F) =
      ((children R F (R.ident c)).map f).map (fold R node G) := by
    rw [List.map_map]
    exact List.map_congr_left ih
  rw [fold_eq hF hc,fold_eq hG (h.bijective.mapsTo hc),h.labels c hc,hmap]
  exact hnode _ _ _ ((children_image hF hG h hc).map _)

theorem roots_same (hF : Forest R F) (hG : Forest R G) (h : Isomorphism R F G f)
    (hnode : Unordered node) :
    ((roots R F).map (fold R node F)).Perm ((roots R G).map (fold R node G)) := by
  have hmap : (roots R F).map (fold R node F) = ((roots R F).map f).map (fold R node G) := by
    rw [List.map_map]
    exact List.map_congr_left fun c hc => fold_image hF hG h hnode c (mem_roots.mp hc).1
  rw [hmap]
  exact (roots_image hF hG h).map _

/-- No two siblings and no two roots have the same value. -/
structure Distinct (R : Reading N I L) (node : L → List T → T) (F : List N) : Prop where
  siblings : ∀ p ∈ F, ((children R F (R.ident p)).map (fold R node F)).Nodup
  roots : ((roots R F).map (fold R node F)).Nodup

inductive Matched (R : Reading N I L) (node : L → List T → T) (F G : List N) : N → N → Prop
  | root {c d : N} : c ∈ roots R F → d ∈ roots R G → fold R node F c = fold R node G d →
      Matched R node F G c d
  | child {c d p q : N} : Matched R node F G p q → c ∈ children R F (R.ident p) →
      d ∈ children R G (R.ident q) → fold R node F c = fold R node G d → Matched R node F G c d

theorem matched_swap {c d : N} (h : Matched R node F G c d) : Matched R node G F d c := by
  induction h with
  | root hc hd hvalue => exact .root hd hc hvalue.symm
  | child _ hc hd hvalue ih => exact .child ih hd hc hvalue.symm

theorem matched_value {c d : N} (h : Matched R node F G c d) :
    c ∈ F ∧ d ∈ G ∧ fold R node F c = fold R node G d := by
  cases h with
  | root hc hd hvalue => exact ⟨(mem_roots.mp hc).1,(mem_roots.mp hd).1,hvalue⟩
  | child _ hc hd hvalue => exact ⟨(mem_children.mp hc).1,(mem_children.mp hd).1,hvalue⟩

theorem matched_roots {c d : N} (h : Matched R node F G c d) :
    R.parent d = none ↔ R.parent c = none := by
  cases h with
  | root hc hd _ => exact iff_of_true (mem_roots.mp hd).2 (mem_roots.mp hc).2
  | child _ hc hd _ =>
    rw [(mem_children.mp hc).2,(mem_children.mp hd).2]
    exact iff_of_false (Option.some_ne_none _) (Option.some_ne_none _)

theorem matched_single (hF : Forest R F) (dG : Distinct R node G) {c d e : N}
    (hd : Matched R node F G c d) (he : Matched R node F G c e) : d = e := by
  induction hd generalizing e with
  | @root c d hc hd hvalue =>
    cases he with
    | root _ he hother =>
      exact List.inj_on_of_nodup_map dG.roots hd he (hvalue.symm.trans hother)
    | child _ hchild _ _ =>
      have hparent := (mem_children.mp hchild).2
      rw [(mem_roots.mp hc).2] at hparent
      cases hparent
  | @child c d p q hpq hc hd hvalue ih =>
    have hparent := (mem_children.mp hc).2
    cases he with
    | root hroot _ _ =>
      rw [(mem_roots.mp hroot).2] at hparent
      cases hparent
    | @child _ _ p' q' hpq' hc' he hother =>
      rw [(mem_children.mp hc').2,Option.some.injEq] at hparent
      have hp := eq_of_ident hF (matched_value hpq').1 (matched_value hpq).1 hparent
      rw [hp] at hpq'
      rw [← ih hpq'] at he
      exact List.inj_on_of_nodup_map (dG.siblings q (matched_value hpq).2.1) hd he
        (hvalue.symm.trans hother)

theorem matched_parent (hF : Forest R F) (dG : Distinct R node G) {c d p q : N}
    (hcd : Matched R node F G c d) (hpq : Matched R node F G p q)
    (hparent : R.parent c = some (R.ident p)) : R.parent d = some (R.ident q) := by
  cases hcd with
  | root hc _ _ =>
    rw [(mem_roots.mp hc).2] at hparent
    cases hparent
  | child hpq' hc hd _ =>
    rw [(mem_children.mp hc).2,Option.some.injEq] at hparent
    have hp := eq_of_ident hF (matched_value hpq').1 (matched_value hpq).1 hparent
    rw [hp] at hpq'
    rw [matched_single hF dG hpq hpq']
    exact (mem_children.mp hd).2

theorem matched_total (hF : Forest R F) (htold : Told R node F G)
    (hroots : ((roots R F).map (fold R node F)).Perm ((roots R G).map (fold R node G))) :
    ∀ c ∈ F, ∃ d, Matched R node F G c d := by
  apply forest_ascend hF (P := fun c => ∃ d, Matched R node F G c d)
  · intro c hc
    have hmem := hroots.mem_iff.mp (List.mem_map_of_mem hc)
    obtain ⟨d,hd,hvalue⟩ := List.mem_map.mp hmem
    exact ⟨d,.root hc hd hvalue.symm⟩
  · intro p hp hmatched c hc
    obtain ⟨q,hpq⟩ := hmatched
    obtain ⟨-,hq,hvalue⟩ := matched_value hpq
    have hperm := (htold p hp q hq hvalue).2
    have hmem := hperm.mem_iff.mp (List.mem_map_of_mem hc)
    obtain ⟨d,hd,hsame⟩ := List.mem_map.mp hmem
    exact ⟨d,.child hpq hc hd hsame.symm⟩

theorem told_swap (h : Told R node F G) : Told R node G F := by
  intro d hd c hc hvalue
  obtain ⟨hlabel,hperm⟩ := h c hc d hd hvalue.symm
  exact ⟨hlabel.symm,hperm.symm⟩

theorem isomorphic_of_roots (hF : Forest R F) (hG : Forest R G) (htold : Told R node F G)
    (dF : Distinct R node F) (dG : Distinct R node G)
    (hroots : ((roots R F).map (fold R node F)).Perm ((roots R G).map (fold R node G))) :
    Isomorphic R F G := by
  classical
  have htotal := matched_total hF htold hroots
  have honto := matched_total hG (told_swap htold) hroots.symm
  have hchosen : ∀ c, ∃ d, c ∈ F → Matched R node F G c d := by
    intro c
    by_cases hc : c ∈ F
    · obtain ⟨d,hd⟩ := htotal c hc
      exact ⟨d,fun _ => hd⟩
    · exact ⟨c,fun h => absurd h hc⟩
  choose f hf using hchosen
  have hback : ∀ {c d e : N}, Matched R node F G c e → Matched R node F G d e → c = d :=
    fun hc hd => matched_single hG dF (matched_swap hc) (matched_swap hd)
  refine ⟨f,⟨?_,?_,?_⟩,?_,?_,?_⟩
  · exact fun c hc => (matched_value (hf c hc)).2.1
  · intro c hc d hd hcd
    have hother := hf d hd
    rw [← hcd] at hother
    exact hback (hf c hc) hother
  · intro d hd
    obtain ⟨c,hc⟩ := honto d hd
    have hmatched := matched_swap hc
    have hmem := (matched_value hmatched).1
    exact ⟨c,hmem,matched_single hF dG (hf c hmem) hmatched⟩
  · intro c hc
    obtain ⟨hmem,hother,hvalue⟩ := matched_value (hf c hc)
    exact (htold c hmem (f c) hother hvalue).1.symm
  · exact fun c hc => matched_roots (hf c hc)
  · intro c hc p hp
    constructor
    · exact matched_parent hG dF (matched_swap (hf c hc)) (matched_swap (hf p hp))
    · exact matched_parent hF dG (hf c hc) (hf p hp)

end Forests
