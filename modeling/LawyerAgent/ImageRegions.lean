import LawyerAgent.Merging.Clusters
import LawyerAgent.Outcomes.Except
import Mathlib.Algebra.Order.Ring.Rat
import Mathlib.Data.List.Perm.Basic
import Mathlib.Data.List.Sort
import Mathlib.Data.Prod.Lex
import Mathlib.Tactic.Linarith

/-!
# Image regions of a page

The boxes of the images of a page are merged into the regions that are read one
by one. A single pass over the regions takes each new box in.
-/

set_option autoImplicit false

namespace LawyerAgent.ImageRegions
open Outcomes Merging

structure Box where
  x0 : ℚ
  top : ℚ
  x1 : ℚ
  bottom : ℚ
deriving DecidableEq

def Box.join (a b : Box) : Box :=
  ⟨min a.x0 b.x0,min a.top b.top,max a.x1 b.x1,max a.bottom b.bottom⟩

def Box.Inside (a b : Box) : Prop :=
  b.x0 ≤ a.x0 ∧ b.top ≤ a.top ∧ a.x1 ≤ b.x1 ∧ a.bottom ≤ b.bottom

instance : SemilatticeSup Box where
  sup := Box.join
  le := Box.Inside
  le_refl _ := ⟨le_rfl,le_rfl,le_rfl,le_rfl⟩
  le_trans _ _ _ h k := ⟨k.1.trans h.1,k.2.1.trans h.2.1,h.2.2.1.trans k.2.2.1,
    h.2.2.2.trans k.2.2.2⟩
  le_antisymm a b h k := by
    cases a
    cases b
    exact Box.mk.injEq .. ▸ ⟨le_antisymm k.1 h.1,le_antisymm k.2.1 h.2.1,
      le_antisymm h.2.2.1 k.2.2.1,le_antisymm h.2.2.2 k.2.2.2⟩
  le_sup_left _ _ := ⟨min_le_left _ _,min_le_left _ _,le_max_left _ _,le_max_left _ _⟩
  le_sup_right _ _ := ⟨min_le_right _ _,min_le_right _ _,le_max_right _ _,le_max_right _ _⟩
  sup_le _ _ _ h k := ⟨le_min h.1 k.1,le_min h.2.1 k.2.1,max_le h.2.2.1 k.2.2.1,
    max_le h.2.2.2 k.2.2.2⟩

instance (a b : Box) : Decidable (a ≤ b) :=
  inferInstanceAs (Decidable (b.x0 ≤ a.x0 ∧ b.top ≤ a.top ∧ a.x1 ≤ b.x1 ∧ a.bottom ≤ b.bottom))

/-- How a difference of floats is rounded. -/
structure Rounding where
  round : ℚ → ℚ
  mono : Monotone round

/-- The float `0.01`. -/
def tolerance : ℚ := 5764607523034235/2^59

def overlap (rounding : Rounding) (left right : Box) : Prop :=
  tolerance < rounding.round (min left.x1 right.x1-max left.x0 right.x0) ∧
    tolerance < rounding.round (min left.bottom right.bottom-max left.top right.top)

instance (rounding : Rounding) : DecidableRel (overlap rounding) := fun _ _ =>
  inferInstanceAs (Decidable (_ ∧ _))

theorem overlap_touching (rounding : Rounding) : Touching (overlap rounding) where
  symm := by
    intro a b h
    rw [overlap,min_comm,max_comm,min_comm b.bottom,max_comm b.top]
    exact h
  grow := by
    intro a a' b h hle
    obtain ⟨hx0,htop,hx1,hbottom⟩ := hle
    constructor
    · exact h.1.trans_le (rounding.mono
        (sub_le_sub (min_le_min_right b.x1 hx1) (max_le_max_right b.x0 hx0)))
    · exact h.2.trans_le (rounding.mono
        (sub_le_sub (min_le_min_right b.bottom hbottom) (max_le_max_right b.top htop)))
  self := by
    intro a b h
    rw [overlap,min_self,max_self,min_self,max_self]
    constructor
    · exact h.1.trans_le (rounding.mono (sub_le_sub (min_le_left _ _) (le_max_left _ _)))
    · exact h.2.trans_le (rounding.mono (sub_le_sub (min_le_left _ _) (le_max_left _ _)))

inductive Coordinate where
  | finite (value : ℚ)
  /-- An infinity or `nan`. -/
  | notFinite

/-- What `float(image[key])` gives for the keys of an image; a missing key and
a value of another type are nothing. -/
inductive ImageObject where
  | notDict
  | dict (x0 top x1 bottom : Option Coordinate)

def readBox (width height : ℚ) : ImageObject → Except String Box
  | .dict (some (.finite x0)) (some (.finite top)) (some (.finite x1)) (some (.finite bottom)) =>
    if (0 ≤ x0 ∧ x0 < x1 ∧ x1 ≤ width) ∧ (0 ≤ top ∧ top < bottom ∧ bottom ≤ height) then
      .ok ⟨x0,top,x1,bottom⟩
    else .error "page_geometry_unsupported"
  | _ => .error "page_geometry_unsupported"

variable (rounding : Rounding)

def mergeInto : Box → List Box → Box × List Box
  | current, [] => (current,[])
  | current, existing::regions =>
    if overlap rounding existing current ∨ existing = current then
      mergeInto (existing.join current) regions
    else ((mergeInto current regions).1,existing::(mergeInto current regions).2)

def addBox (regions : List Box) (box : Box) : List Box :=
  (mergeInto rounding box regions).2++[(mergeInto rounding box regions).1]

def addImage (width height : ℚ) (regions : List Box) (image : ImageObject) :
    Except String (List Box) := do
  let box ← readBox width height image
  return addBox rounding regions box

def regionKey (box : Box) : ℚ ×ₗ ℚ ×ₗ ℚ ×ₗ ℚ :=
  toLex (box.top,toLex (box.x0,toLex (box.bottom,box.x1)))

def sortRegions (regions : List Box) : List Box :=
  regions.insertionSort fun a b => regionKey a ≤ regionKey b

def imageRegions (images : List ImageObject) (width height : ℚ) : Except String (List Box) := do
  let regions ← images.foldlM (addImage rounding width height) []
  return sortRegions regions

variable {rounding}

theorem mergeInto_pass (current : Box) (existing : List Box) :
    mergeInto rounding current existing = Merging.pass (overlap rounding) current existing := by
  induction existing generalizing current with
  | nil => rfl
  | cons r rs ih =>
    rw [mergeInto,Merging.pass]
    split
    · exact ih (r.join current)
    · rw [ih]

theorem addBox_place : addBox rounding = place (overlap rounding) := by
  funext existing box
  rw [addBox,place,mergeInto_pass]

theorem foldlM_boxes {width height : ℚ} {images : List ImageObject} {start out : List Box} :
    images.foldlM (addImage rounding width height) start = .ok out ↔
      ∃ boxes, images.mapM (readBox width height) = .ok boxes ∧
        out = boxes.foldl (addBox rounding) start := by
  induction images generalizing start with
  | nil =>
    rw [List.foldlM_nil,List.mapM_nil]
    constructor
    · intro h
      exact ⟨[],rfl,(ok_inj.mp h).symm⟩
    · rintro ⟨boxes,hboxes,rfl⟩
      rw [← ok_inj.mp hboxes]
      rfl
  | cons image images ih =>
    rw [List.foldlM_cons,bind_ok]
    simp only [addImage,bind_ok,List.mapM_cons]
    constructor
    · rintro ⟨next,⟨box,hbox,hnext⟩,hrest⟩
      obtain ⟨boxes,hboxes,rfl⟩ := ih.mp hrest
      rw [← ok_inj.mp hnext]
      exact ⟨box::boxes,⟨box,hbox,boxes,hboxes,rfl⟩,rfl⟩
    · rintro ⟨boxes,⟨box,hbox,rest,hrest,hboxes⟩,hout⟩
      rw [← ok_inj.mp hboxes] at hout
      exact ⟨addBox rounding start box,⟨box,hbox,rfl⟩,ih.mpr ⟨rest,hrest,hout⟩⟩

theorem imageRegions_ok {width height : ℚ} {images : List ImageObject} {out : List Box} :
    imageRegions rounding images width height = .ok out ↔
      ∃ boxes, images.mapM (readBox width height) = .ok boxes ∧
        out = sortRegions (regions (overlap rounding) boxes) := by
  rw [imageRegions,bind_ok]
  constructor
  · rintro ⟨found,hfound,hout⟩
    obtain ⟨boxes,hboxes,rfl⟩ := foldlM_boxes.mp hfound
    rw [addBox_place] at hout
    exact ⟨boxes,hboxes,(ok_inj.mp hout).symm⟩
  · rintro ⟨boxes,hboxes,rfl⟩
    refine ⟨_,foldlM_boxes.mpr ⟨boxes,hboxes,rfl⟩,?_⟩
    rw [addBox_place]
    rfl

theorem read_order {width height : ℚ} {images : List ImageObject} {boxes order : List Box}
    (h : images.mapM (readBox width height) = .ok boxes) (hperm : order.Perm boxes) :
    ∃ others : List ImageObject, others.Perm images ∧
      others.mapM (readBox width height) = .ok order := by
  have hflip : List.Forall₂ (fun box image => readBox width height image = .ok box) boxes images :=
    (mapM_ok.mp h).flip
  obtain ⟨others,hothers,hsame⟩ := List.perm_comp_forall₂ hperm hflip
  exact ⟨others,hsame,mapM_ok.mpr hothers.flip⟩

theorem order_read {width height : ℚ} {images others : List ImageObject} {boxes : List Box}
    (h : images.mapM (readBox width height) = .ok boxes) (hperm : others.Perm images) :
    ∃ order : List Box, order.Perm boxes ∧ others.mapM (readBox width height) = .ok order := by
  obtain ⟨order,horder,hsame⟩ := List.perm_comp_forall₂ hperm (mapM_ok.mp h)
  exact ⟨order,hsame,mapM_ok.mpr horder⟩

theorem regionKey_inj {a b : Box} (h : regionKey a = regionKey b) : a = b := by
  simp only [regionKey,toLex_inj,Prod.mk.injEq] at h
  obtain ⟨htop,hx0,hbottom,hx1⟩ := h
  cases a
  cases b
  simp only at htop hx0 hbottom hx1
  rw [htop,hx0,hbottom,hx1]

theorem sortRegions_perm (found : List Box) : (sortRegions found).Perm found :=
  List.perm_insertionSort _ found

theorem sortRegions_same {found others : List Box} (h : found.Perm others) :
    sortRegions found = sortRegions others := by
  have htotal : Std.Total fun a b : Box => regionKey a ≤ regionKey b := ⟨fun a b => le_total _ _⟩
  have htrans : IsTrans Box fun a b => regionKey a ≤ regionKey b := ⟨fun _ _ _ => le_trans⟩
  have hperm : (sortRegions found).Perm (sortRegions others) :=
    (sortRegions_perm found).trans (h.trans (sortRegions_perm others).symm)
  refine hperm.eq_of_pairwise ?_ (List.pairwise_insertionSort _ found)
    (List.pairwise_insertionSort _ others)
  intro a b _ _ hab hba
  exact regionKey_inj (le_antisymm hab hba)

theorem readBox_corner {width height : ℚ} {image : ImageObject} {box : Box}
    (h : readBox width height image = .ok box) : 0 ≤ box.x0 ∧ 0 ≤ box.top := by
  rw [readBox.eq_def] at h
  split at h
  · split at h
    · next hinside =>
      cases h
      exact ⟨hinside.1.1,hinside.2.1⟩
    · cases h
  · cases h

theorem cluster_corner {S : Set Box} {region : Box} (h : Cluster (overlap rounding) S region)
    (hS : ∀ box ∈ S, 0 ≤ box.x0 ∧ 0 ≤ box.top) : 0 ≤ region.x0 ∧ 0 ≤ region.top := by
  induction h with
  | single box => exact hS box rfl
  | merge _ _ _ ihS ihT =>
    have hleft := ihS fun box hbox => hS box (Or.inl hbox)
    have hright := ihT fun box hbox => hS box (Or.inr hbox)
    exact ⟨le_min hleft.1 hright.1,le_min hleft.2 hright.2⟩

theorem imageRegions_corner {width height : ℚ} {images : List ImageObject} {out : List Box}
    (h : imageRegions rounding images width height = .ok out) :
    ∀ region ∈ out, 0 ≤ region.x0 ∧ 0 ≤ region.top := by
  obtain ⟨boxes,hboxes,rfl⟩ := imageRegions_ok.mp h
  intro region hregion
  have hfound := (sortRegions_perm _).mem_iff.mp hregion
  rw [groups_regions] at hfound
  obtain ⟨p,hp,rfl⟩ := List.mem_map.mp hfound
  have hgrouped := grouped_groups (overlap_touching rounding) boxes
  refine cluster_corner (hgrouped.clusters p hp) ?_
  intro box hbox
  obtain ⟨image,-,himage⟩ := mapM_mem hboxes box (hgrouped.within hp box hbox)
  exact readBox_corner himage

/-- No region overlaps another, each box is inside one region, each region is
the bounding box of the boxes inside it, and every order of the images gives
these regions. -/
structure Proper (rounding : Rounding) (width height : ℚ) (images : List ImageObject)
    (boxes regions : List Box) : Prop where
  apart : regions.Pairwise fun r s => ¬overlap rounding r s
  unique : ∀ box ∈ boxes, ∃ region, regions.filter (box ≤ ·) = [region]
  bounding : ∀ region ∈ regions, IsLUB {box | box ∈ boxes ∧ box ≤ region} region
  order : ∀ others : List ImageObject, others.Perm images →
    imageRegions rounding others width height = .ok regions

/-- A box too thin to overlap itself is inside no cluster of other boxes. -/
def Sharp (rounding : Rounding) (boxes : List Box) : Prop :=
  ∀ b ∈ boxes, ¬overlap rounding b b →
    ∀ S r, Cluster (overlap rounding) S r → Within boxes S → b ≤ r → b ∈ S

theorem filter_only {regions : List Box} {box region : Box} (hnodup : regions.Nodup)
    (hregion : region ∈ regions) (hinside : box ≤ region)
    (honly : ∀ other ∈ regions, box ≤ other → other = region) :
    regions.filter (box ≤ ·) = [region] := by
  rw [← List.perm_singleton,List.perm_ext_iff_of_nodup (hnodup.filter _) (List.nodup_singleton _)]
  intro other
  rw [List.mem_filter,List.mem_singleton,decide_eq_true_iff]
  constructor
  · intro h
    exact honly other h.1 h.2
  · intro h
    rw [h]
    exact ⟨hregion,hinside⟩

theorem inside_only {boxes : List Box} {ps : List (Set Box × Box)}
    (h : Grouped (overlap rounding) boxes ps) (hfree : Free (overlap rounding) (ps.map Prod.snd))
    (hsharp : Sharp rounding boxes) {box : Box} {p q : Set Box × Box} (hp : p ∈ ps) (hq : q ∈ ps)
    (hbox : box ∈ p.1) (hinside : box ≤ q.2) : q = p := by
  by_cases hself : overlap rounding box box
  · have htouch : overlap rounding q.2 p.2 :=
      (overlap_touching rounding).grow_both hself hinside ((h.clusters p hp).le hbox)
    exact hfree.one_group (overlap_touching rounding) hq hp htouch
  · have hmem : box ∈ q.1 :=
      hsharp box (h.within hp box hbox) hself q.1 q.2 (h.clusters q hq) (h.within hq) hinside
    exact h.one_group hq hp hmem hbox

section Read
variable {width height : ℚ} {images : List ImageObject} {boxes : List Box}

theorem proper_of_separable (hboxes : images.mapM (readBox width height) = .ok boxes)
    (hseparable : Separable (overlap rounding) boxes) (hsharp : Sharp rounding boxes) :
    Proper rounding width height images boxes (sortRegions (regions (overlap rounding) boxes)) := by
  have ht := overlap_touching rounding
  have hgrouped := grouped_groups ht boxes
  have hfree := hgrouped.free ht hseparable
  have hsorted : (sortRegions (regions (overlap rounding) boxes)).Perm
      ((groups (overlap rounding) boxes).map Prod.snd) := by
    rw [← groups_regions]
    exact sortRegions_perm _
  have hnodup := hsorted.nodup_iff.mpr (hgrouped.nodup ht hfree)
  constructor
  · have hsymm : Std.Symm fun r s : Box => ¬overlap rounding r s :=
      ⟨fun _ _ hno h => hno (ht.symm h)⟩
    exact (hsorted.pairwise_iff (hsymm.symm _ _)).mpr hfree
  · intro box hbox
    obtain ⟨p,hp,hmem⟩ := (hgrouped.cover box).mp hbox
    refine ⟨p.2,filter_only hnodup (hsorted.mem_iff.mpr (List.mem_map_of_mem hp))
      ((hgrouped.clusters p hp).le hmem) ?_⟩
    intro other hother hinside
    obtain ⟨q,hq,rfl⟩ := List.mem_map.mp (hsorted.mem_iff.mp hother)
    rw [inside_only hgrouped hfree hsharp hp hq hmem hinside]
  · intro region hregion
    obtain ⟨p,hp,rfl⟩ := List.mem_map.mp (hsorted.mem_iff.mp hregion)
    have hjoin := (hgrouped.clusters p hp).isLUB
    constructor
    · intro box hbox
      exact hbox.2
    · intro bound hbound
      exact hjoin.2 fun box hbox => hbound ⟨hgrouped.within hp box hbox,hjoin.1 hbox⟩
  · intro others hothers
    obtain ⟨order,horder,hread⟩ := order_read hboxes hothers
    rw [imageRegions_ok]
    refine ⟨order,hread,sortRegions_same ?_⟩
    rw [groups_regions,groups_regions]
    exact hgrouped.perm ht (grouped_groups ht order) (fun a => horder.mem_iff.symm) hseparable

theorem Proper.free {found : List Box} (h : Proper rounding width height images boxes found)
    (hboxes : images.mapM (readBox width height) = .ok boxes) {order : List Box}
    (horder : order.Perm boxes) : Free (overlap rounding) (regions (overlap rounding) order) := by
  obtain ⟨others,hothers,hread⟩ := read_order hboxes horder
  obtain ⟨order',hread',hfound⟩ := imageRegions_ok.mp (h.order others hothers)
  rw [ok_inj.mp (hread.symm.trans hread'),Free]
  have hsymm : Std.Symm fun r s : Box => ¬overlap rounding r s :=
    ⟨fun _ _ hno h => hno ((overlap_touching rounding).symm h)⟩
  have hapart := h.apart
  rw [hfound] at hapart
  exact ((sortRegions_perm _).pairwise_iff (hsymm.symm _ _)).mp hapart

theorem Proper.separable {found : List Box} (h : Proper rounding width height images boxes found)
    (hboxes : images.mapM (readBox width height) = .ok boxes) :
    Separable (overlap rounding) boxes :=
  separable_of_free (overlap_touching rounding) fun _ horder => h.free hboxes horder

theorem Proper.sharp {found : List Box} (h : Proper rounding width height images boxes found)
    (hboxes : images.mapM (readBox width height) = .ok boxes) : Sharp rounding boxes := by
  intro b hb hself S r hS hin hbr
  have ht := overlap_touching rounding
  have hgrouped := grouped_groups ht boxes
  have hfree := h.free hboxes (List.Perm.refl boxes)
  rw [groups_regions] at hfree
  obtain ⟨p,hp,hSp,hrp⟩ := hgrouped.cluster_in ht hfree hS hin
  obtain ⟨q,hq,hbq⟩ := (hgrouped.cover b).mp hb
  obtain ⟨order,hread,hfound⟩ := imageRegions_ok.mp (h.order images (List.Perm.refl images))
  rw [← ok_inj.mp (hboxes.symm.trans hread)] at hfound
  have hsorted : found.Perm ((groups (overlap rounding) boxes).map Prod.snd) := by
    rw [hfound,← groups_regions]
    exact sortRegions_perm _
  obtain ⟨region,hregion⟩ := h.unique b hb
  have hmem : ∀ s ∈ groups (overlap rounding) boxes, b ≤ s.2 → s.2 = region := by
    intro s hs hinside
    have hkept : s.2 ∈ found.filter (b ≤ ·) := List.mem_filter.mpr
      ⟨hsorted.mem_iff.mpr (List.mem_map_of_mem hs),decide_eq_true hinside⟩
    rw [hregion] at hkept
    exact List.mem_singleton.mp hkept
  have hsame : p.2 = q.2 :=
    (hmem p hp (hbr.trans hrp)).trans (hmem q hq ((hgrouped.clusters q hq).le hbq)).symm
  have hpq : p = q := List.inj_on_of_nodup_map (hgrouped.nodup ht hfree) hp hq hsame
  subst hpq
  obtain ⟨a,ha⟩ := hS.nonempty
  have hone := ((hgrouped.clusters p hp).of_thin ht hbq hself).1
  have hab : a = b := by simpa [hone] using hSp ha
  exact hab ▸ ha

end Read

/-- The regions are proper exactly when no cluster is reached by a join alone
and no thin box is inside a cluster of others. -/
theorem regions_proper_iff {rounding : Rounding} {width height : ℚ} {images : List ImageObject}
    {found : List Box} (h : imageRegions rounding images width height = .ok found) :
    ∃ boxes : List Box, images.mapM (readBox width height) = .ok boxes ∧
      (Proper rounding width height images boxes found ↔
        Separable (overlap rounding) boxes ∧ Sharp rounding boxes) := by
  obtain ⟨boxes,hboxes,hfound⟩ := imageRegions_ok.mp h
  refine ⟨boxes,hboxes,?_⟩
  constructor
  · intro hproper
    exact ⟨hproper.separable hboxes,hproper.sharp hboxes⟩
  · intro hcondition
    rw [hfound]
    exact proper_of_separable hboxes hcondition.1 hcondition.2

/-- Whole numbers are rounded to themselves. -/
def whole : Rounding := ⟨id,monotone_id⟩

def imageAt (x0 top x1 bottom : ℚ) : ImageObject :=
  .dict (some (.finite x0)) (some (.finite top)) (some (.finite x1)) (some (.finite bottom))

theorem one_image_proper : ∃ boxes : List Box,
    [imageAt 0 0 10 2].mapM (readBox 100 100) = .ok boxes ∧
      (Proper whole 100 100 [imageAt 0 0 10 2] boxes [⟨0,0,10,2⟩] ↔
        Separable (overlap whole) boxes ∧ Sharp whole boxes) :=
  regions_proper_iff (by decide)

/-- The middle image is passed before the two bars that close around it are
joined, and it stays a region of its own. -/
theorem corner_left_behind :
    imageRegions whole [imageAt 5 5 6 6,imageAt 0 0 10 2,imageAt 0 0 2 10] 100 100 =
        .ok [⟨0,0,10,10⟩,⟨5,5,6,6⟩] ∧
      overlap whole ⟨0,0,10,10⟩ ⟨5,5,6,6⟩ ∧
      imageRegions whole [imageAt 0 0 10 2,imageAt 0 0 2 10,imageAt 5 5 6 6] 100 100 =
        .ok [⟨0,0,10,10⟩] ∧
      ¬Proper whole 100 100 [imageAt 5 5 6 6,imageAt 0 0 10 2,imageAt 0 0 2 10]
        [⟨5,5,6,6⟩,⟨0,0,10,2⟩,⟨0,0,2,10⟩] [⟨0,0,10,10⟩,⟨5,5,6,6⟩] := by
  have hover : overlap whole ⟨0,0,10,10⟩ ⟨5,5,6,6⟩ := by decide +kernel
  constructor
  · decide +kernel
  · constructor
    · exact hover
    · constructor
      · decide +kernel
      · intro hproper
        exact (List.pairwise_cons.mp hproper.apart).1 _ List.mem_cons_self hover

end LawyerAgent.ImageRegions
