import Mathlib.Data.List.Nodup
import Mathlib.Data.Multiset.ZeroCons
import Mathlib.Data.Multiset.AddSub
import Mathlib.Data.Multiset.MapFold
import Mathlib.Data.Set.Function
import Mathlib.Logic.Relation

/-!
# Folds over forests

A forest is a list of nodes that name their parents. A fold gives every node a
value from its label and the values of its children. A fold that forgets
nothing but the order of children tells two forests apart exactly when they are
not isomorphic.
-/

set_option autoImplicit false

namespace Forests
open Relation

structure Reading (N I L : Type) where
  ident : N → I
  parent : N → Option I
  label : N → L

variable {N I L T : Type} [DecidableEq I] (R : Reading N I L)

def children (F : List N) (i : I) : List N := F.filter fun c => R.parent c == some i

def roots (F : List N) : List N := F.filter fun c => R.parent c == none

omit [DecidableEq I] in
def ChildOf (F : List N) (c p : N) : Prop :=
  c ∈ F ∧ p ∈ F ∧ R.parent c = some (R.ident p)

structure Forest (F : List N) : Prop where
  ids : (F.map R.ident).Nodup
  parents : ∀ c ∈ F, ∀ i, R.parent c = some i → ∃ p ∈ F, R.ident p = i
  acyclic : ∀ c, ¬TransGen (ChildOf R F) c c

variable {R} {F G : List N}

theorem mem_children {i : I} {c : N} : c ∈ children R F i ↔ c ∈ F ∧ R.parent c = some i := by
  rw [children,List.mem_filter,beq_iff_eq]

theorem mem_roots {c : N} : c ∈ roots R F ↔ c ∈ F ∧ R.parent c = none := by
  rw [roots,List.mem_filter,beq_iff_eq]

omit [DecidableEq I] in
theorem forest_nodup (h : Forest R F) : F.Nodup := h.ids.of_map _

omit [DecidableEq I] in
theorem eq_of_ident (h : Forest R F) {c d : N} (hc : c ∈ F) (hd : d ∈ F)
    (hid : R.ident c = R.ident d) : c = d := List.inj_on_of_nodup_map h.ids hc hd hid

open Classical in
noncomputable def height (R : Reading N I L) (F : List N) (c : N) : ℕ :=
  (F.filter fun d => decide (TransGen (ChildOf R F) d c)).length

omit [DecidableEq I] in
theorem height_le (c : N) : height R F c ≤ F.length := List.length_filter_le _ _

omit [DecidableEq I] in
theorem height_lt (h : Forest R F) {c p : N} (hcp : ChildOf R F c p) :
    height R F c < height R F p := by
  classical
  have hfilter : F.filter (fun d => decide (TransGen (ChildOf R F) d c)) =
      (F.filter fun d => decide (TransGen (ChildOf R F) d p)).filter
        fun d => decide (TransGen (ChildOf R F) d c) := by
    rw [List.filter_filter]
    apply List.filter_congr
    intro d _
    by_cases hd : TransGen (ChildOf R F) d c
    · have hp : TransGen (ChildOf R F) d p := hd.tail hcp
      simp [hd,hp]
    · simp [hd]
  have hmem : c ∈ F.filter fun d => decide (TransGen (ChildOf R F) d p) :=
    List.mem_filter.mpr ⟨hcp.1,decide_eq_true (TransGen.single hcp)⟩
  rw [height,height,hfilter]
  apply List.length_filter_lt_length_iff_exists.mpr
  exact ⟨c,hmem,by simpa using h.acyclic c⟩

theorem forest_induct (h : Forest R F) {P : N → Prop}
    (step : ∀ c ∈ F, (∀ d ∈ children R F (R.ident c), P d) → P c) : ∀ c ∈ F, P c := by
  have hall : ∀ n, ∀ c ∈ F, height R F c < n → P c := by
    intro n
    induction n with
    | zero => exact fun c _ hn => absurd hn (Nat.not_lt_zero _)
    | succ n ih =>
      intro c hc hn
      apply step c hc
      intro d hd
      obtain ⟨hmem,hparent⟩ := mem_children.mp hd
      have hlt := height_lt h ⟨hmem,hc,hparent⟩
      exact ih d hmem (by omega)
  exact fun c hc => hall _ c hc (Nat.lt_succ_self _)

theorem forest_ascend (h : Forest R F) {P : N → Prop} (hroot : ∀ c ∈ roots R F, P c)
    (hchild : ∀ p ∈ F, P p → ∀ c ∈ children R F (R.ident p), P c) : ∀ c ∈ F, P c := by
  have hall : ∀ n, ∀ c ∈ F, F.length < height R F c+n → P c := by
    intro n
    induction n with
    | zero =>
      intro c _ hn
      have hle := height_le (R := R) (F := F) c
      omega
    | succ n ih =>
      intro c hc hn
      cases hparent : R.parent c with
      | none => exact hroot c (mem_roots.mpr ⟨hc,hparent⟩)
      | some i =>
        obtain ⟨p,hp,rfl⟩ := h.parents c hc i hparent
        have hlt := height_lt h ⟨hc,hp,hparent⟩
        exact hchild p hp (ih p hp (by omega)) c (mem_children.mpr ⟨hc,hparent⟩)
  exact fun c hc => hall (F.length+1) c hc (by omega)

def value (R : Reading N I L) (node : L → List T → T) (F : List N) : ℕ → N → T
  | 0, c => node (R.label c) []
  | fuel+1, c => node (R.label c) ((children R F (R.ident c)).map (value R node F fuel))

def fold (R : Reading N I L) (node : L → List T → T) (F : List N) (c : N) : T :=
  value R node F F.length c

variable {node : L → List T → T}

theorem value_stable (h : Forest R F) : ∀ c ∈ F, ∀ m n, height R F c ≤ m → height R F c ≤ n →
    value R node F m c = value R node F n c := by
  apply forest_induct h (P := fun c => ∀ m n, height R F c ≤ m → height R F c ≤ n →
    value R node F m c = value R node F n c)
  intro c hc ih m n hm hn
  have hlower : ∀ d ∈ children R F (R.ident c), height R F d < height R F c := by
    intro d hd
    obtain ⟨hmem,hparent⟩ := mem_children.mp hd
    exact height_lt h ⟨hmem,hc,hparent⟩
  have hleaf : height R F c = 0 → children R F (R.ident c) = [] := by
    intro hzero
    apply List.eq_nil_iff_forall_not_mem.mpr
    intro d hd
    have hlt := hlower d hd
    omega
  cases m with
  | zero =>
    have hnone := hleaf (by omega)
    cases n with
    | zero => rfl
    | succ n => rw [value,value,hnone,List.map_nil]
  | succ m =>
    cases n with
    | zero => rw [value,value,hleaf (by omega),List.map_nil]
    | succ n =>
      have hsame : (children R F (R.ident c)).map (value R node F m) =
          (children R F (R.ident c)).map (value R node F n) := by
        apply List.map_congr_left
        intro d hd
        have hlt := hlower d hd
        exact ih d hd m n (by omega) (by omega)
      rw [value,value,hsame]

theorem fold_eq (h : Forest R F) {c : N} (hc : c ∈ F) : fold R node F c =
    node (R.label c) ((children R F (R.ident c)).map (fold R node F)) := by
  have hpos := List.length_pos_of_mem hc
  have hsame : (children R F (R.ident c)).map (value R node F (F.length-1)) =
      (children R F (R.ident c)).map (fold R node F) := by
    apply List.map_congr_left
    intro d hd
    obtain ⟨hmem,hparent⟩ := mem_children.mp hd
    have hlt := height_lt h ⟨hmem,hc,hparent⟩
    have hle := height_le (R := R) (F := F) c
    exact value_stable h d hmem _ _ (by omega) (by omega)
  rw [← hsame,fold,show F.length = F.length-1+1 by omega,value,Nat.add_sub_cancel]

/-- Equal values come from equal labels and the same children in some order. -/
def Told (R : Reading N I L) (node : L → List T → T) (F G : List N) : Prop :=
  ∀ c ∈ F, ∀ d ∈ G, fold R node F c = fold R node G d → R.label c = R.label d ∧
    ((children R F (R.ident c)).map (fold R node F)).Perm
      ((children R G (R.ident d)).map (fold R node G))

def Unordered (node : L → List T → T) : Prop :=
  ∀ (l : L) (ts us : List T), ts.Perm us → node l ts = node l us

theorem perm_coarser {A B X Y : Type} {l : List A} {r : List B} {f : A → X} {g : B → X}
    {f' : A → Y} {g' : B → Y} (h : (l.map f).Perm (r.map g))
    (hsame : ∀ a ∈ l, ∀ b ∈ r, f a = g b → f' a = g' b) : (l.map f').Perm (r.map g') := by
  have hrel : Multiset.Rel (fun a b => f a = g b) (l : Multiset A) (r : Multiset B) := by
    rw [← Multiset.rel_map,Multiset.rel_eq,Multiset.map_coe,Multiset.map_coe]
    exact Multiset.coe_eq_coe.mpr h
  have hcoarse := hrel.mono fun a ha b hb hab => hsame a ha b hb hab
  rw [← Multiset.rel_map,Multiset.rel_eq,Multiset.map_coe,Multiset.map_coe] at hcoarse
  exact Multiset.coe_eq_coe.mp hcoarse

theorem fold_coarser {U : Type} {other : L → List U → U} (hF : Forest R F) (hG : Forest R G)
    (htold : Told R node F G) (hother : Unordered other) : ∀ c ∈ F, ∀ d ∈ G,
    fold R node F c = fold R node G d → fold R other F c = fold R other G d := by
  apply forest_induct hF (P := fun c => ∀ d ∈ G, fold R node F c = fold R node G d →
    fold R other F c = fold R other G d)
  intro c hc ih d hd hvalue
  obtain ⟨hlabel,hperm⟩ := htold c hc d hd hvalue
  rw [fold_eq hF hc,fold_eq hG hd,hlabel]
  apply hother
  apply perm_coarser hperm
  intro a ha b hb
  exact ih a ha b (mem_children.mp hb).1

end Forests
