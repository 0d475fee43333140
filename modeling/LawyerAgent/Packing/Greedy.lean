import Mathlib.Algebra.Order.BigOperators.Group.List
import Mathlib.Algebra.Order.Ring.Nat
import Mathlib.Data.List.Chain
import Mathlib.Data.List.Induction

/-!
# Greedy packing

Items go into a group one after the other. A group is closed when the next item
would take it over the limit.
-/

set_option autoImplicit false

namespace Packing

variable {α : Type} (limit : ℕ) (size : α → ℕ)

def total (items : List α) : ℕ := (items.map size).sum

/-- The groups that are closed, and the open one. -/
def place (s : List (List α) × List α) (a : α) : List (List α) × List α :=
  if s.2 ≠ [] ∧ limit < total size s.2+size a then (s.1++[s.2],[a]) else (s.1,s.2++[a])

def close (s : List (List α) × List α) : List (List α) :=
  if s.2 = [] then s.1 else s.1++[s.2]

def placeAll (items : List α) : List (List α) × List α := items.foldl (place limit size) ([],[])

def pack (items : List α) : List (List α) := close (placeAll limit size items)

variable {limit size}

@[simp] theorem total_nil : total size [] = 0 := rfl

@[simp] theorem total_snoc (items : List α) (a : α) :
    total size (items++[a]) = total size items+size a := by simp [total]

variable {items held : List α}

theorem total_ge {bound : ℕ} (h : ∀ a ∈ items, bound ≤ size a) :
    items.length*bound ≤ total size items := by
  have hall : ∀ n ∈ items.map size, bound ≤ n := by
    intro n hn
    obtain ⟨a,ha,rfl⟩ := List.mem_map.mp hn
    exact h a ha
  have hsum := List.card_nsmul_le_sum _ _ hall
  rwa [List.length_map,Nat.nsmul_eq_mul] at hsum

theorem le_total {a : α} (h : a ∈ items) : size a ≤ total size items :=
  List.single_le_sum (by simp) _ (List.mem_map_of_mem h)

theorem close_flatten (s : List (List α) × List α) : (close s).flatten = s.1.flatten++s.2 := by
  unfold close
  split
  · next h => rw [h,List.append_nil]
  · rw [List.flatten_append,List.flatten_singleton]

theorem place_flatten (s : List (List α) × List α) (a : α) :
    (place limit size s a).1.flatten++(place limit size s a).2 = s.1.flatten++s.2++[a] := by
  unfold place
  split <;> simp

theorem placeAll_snoc (items : List α) (a : α) :
    placeAll limit size (items++[a]) = place limit size (placeAll limit size items) a := by
  simp [placeAll]

theorem pack_flatten (items : List α) : (pack limit size items).flatten = items := by
  rw [pack,close_flatten]
  induction items using List.reverseRecOn with
  | nil => rfl
  | append_singleton items a ih => rw [placeAll_snoc,place_flatten,ih]

theorem placeAll_one (h : total size items ≤ limit) :
    placeAll limit size items = ([],items) := by
  induction items using List.reverseRecOn with
  | nil => rfl
  | append_singleton items a ih =>
    rw [total_snoc] at h
    rw [placeAll_snoc,ih (by omega),place,if_neg (by simp only; omega)]

theorem pack_one (hne : items ≠ []) (h : total size items ≤ limit) :
    pack limit size items = [items] := by
  rw [pack,placeAll_one h,close,if_neg hne,List.nil_append]

variable (limit size) in
/-- The groups that follow when `held` is the open one. -/
def groupsFrom (held items : List α) : List (List α) :=
  close (items.foldl (place limit size) ([],held))

theorem foldl_place_front (front : List (List α)) (held items : List α) :
    items.foldl (place limit size) (front,held) =
      (front++(items.foldl (place limit size) ([],held)).1,
        (items.foldl (place limit size) ([],held)).2) := by
  induction items generalizing front held with
  | nil => simp
  | cons a items ih =>
    rw [List.foldl_cons,List.foldl_cons]
    by_cases h : held ≠ [] ∧ limit < total size held+size a
    · rw [place,if_pos h,place,if_pos h,ih (front++[held]),ih ([]++[held])]
      simp
    · rw [place,if_neg h,place,if_neg h,ih]

theorem groupsFrom_nil (held : List α) :
    groupsFrom limit size held [] = if held = [] then [] else [held] := rfl

theorem groupsFrom_full {a : α} (h : held ≠ [] ∧ limit < total size held+size a) (items : List α) :
    groupsFrom limit size held (a::items) = held::groupsFrom limit size [a] items := by
  rw [groupsFrom,List.foldl_cons,place,if_pos h,foldl_place_front,groupsFrom,close,close]
  split <;> simp

theorem groupsFrom_fits {a : α} (h : ¬(held ≠ [] ∧ limit < total size held+size a)) (items : List
      α) :
    groupsFrom limit size held (a::items) = groupsFrom limit size (held++[a]) items := by
  rw [groupsFrom,List.foldl_cons,place,if_neg h,groupsFrom]

theorem groupsFrom_head (hne : held ≠ []) (items : List α) :
    ∃ more rest, groupsFrom limit size held items = (held++more)::rest := by
  induction items generalizing held with
  | nil => exact ⟨[],[],by rw [groupsFrom_nil,if_neg hne,List.append_nil]⟩
  | cons a items ih =>
    by_cases h : held ≠ [] ∧ limit < total size held+size a
    · exact ⟨[],_,by rw [groupsFrom_full h,List.append_nil]⟩
    · have hlonger : held++[a] ≠ [] := by simp
      obtain ⟨more,rest,hgroups⟩ := ih hlonger
      exact ⟨a::more,rest,by rw [groupsFrom_fits h,hgroups,List.append_assoc,List.singleton_append]⟩

theorem groupsFrom_nonempty (held items : List α) :
    ∀ g ∈ groupsFrom limit size held items, g ≠ [] := by
  induction items generalizing held with
  | nil =>
    by_cases hne : held = []
    · simp [groupsFrom_nil,hne]
    · simp [groupsFrom_nil,hne]
  | cons a items ih =>
    by_cases h : held ≠ [] ∧ limit < total size held+size a
    · rw [groupsFrom_full h]
      exact List.forall_mem_cons.mpr ⟨h.1,ih [a]⟩
    · rw [groupsFrom_fits h]
      exact ih (held++[a])

theorem groupsFrom_total (hheld : total size held ≤ limit) (hitems : ∀ a ∈ items, size a ≤ limit) :
    ∀ g ∈ groupsFrom limit size held items, total size g ≤ limit := by
  induction items generalizing held with
  | nil =>
    intro g hg
    rw [groupsFrom_nil] at hg
    by_cases hne : held = []
    · simp [hne] at hg
    · rw [if_neg hne] at hg
      rwa [List.mem_singleton.mp hg]
  | cons a items ih =>
    have ha := hitems a List.mem_cons_self
    have hrest : ∀ b ∈ items, size b ≤ limit := fun b hb => hitems b (List.mem_cons_of_mem a hb)
    by_cases h : held ≠ [] ∧ limit < total size held+size a
    · rw [groupsFrom_full h]
      have hone : total size [a] ≤ limit := by simpa [total] using ha
      exact List.forall_mem_cons.mpr ⟨hheld,ih hone hrest⟩
    · rw [groupsFrom_fits h]
      refine ih ?_ hrest
      rw [total_snoc]
      by_cases hne : held = []
      · rw [hne,total_nil]
        omega
      · exact not_lt.mp fun hlt => h ⟨hne,hlt⟩

/-- The first item of the second group would have taken the first one over the limit. -/
def Full (limit : ℕ) (size : α → ℕ) (g h : List α) : Prop :=
  ∀ a, h.head? = some a → limit < total size g+size a

theorem groupsFrom_full_chain (held items : List α) :
    (groupsFrom limit size held items).IsChain (Full limit size) := by
  induction items generalizing held with
  | nil =>
    rw [groupsFrom_nil]
    split
    · exact .nil
    · exact .singleton held
  | cons a items ih =>
    by_cases h : held ≠ [] ∧ limit < total size held+size a
    · rw [groupsFrom_full h,List.isChain_cons]
      refine ⟨?_,ih [a]⟩
      intro g hg b hb
      have hhead : ∃ more rest, groupsFrom limit size [a] items = ([a]++more)::rest :=
        groupsFrom_head (List.cons_ne_nil a []) items
      obtain ⟨more,rest,hgroups⟩ := hhead
      rw [hgroups,List.head?_cons,Option.mem_some_iff] at hg
      rw [← hg,List.cons_append,List.head?_cons,Option.some_inj] at hb
      rw [← hb]
      exact h.2
    · rw [groupsFrom_fits h]
      exact ih (held++[a])

/-- No groups within the limit that cover what full groups hold are fewer. -/
theorem full_fewest {groups parts : List (List α)} {front : List α}
    (hne : ∀ g ∈ groups, g ≠ []) (hchain : groups.IsChain (Full limit size))
    (hparts : ∀ part ∈ parts, total size part ≤ limit)
    (hcover : parts.flatten = front++groups.flatten) : groups.length ≤ parts.length := by
  induction parts generalizing groups front with
  | nil =>
    cases groups with
    | nil => rfl
    | cons g groups =>
      have hempty := List.append_eq_nil_iff.mp hcover.symm
      exact absurd (List.append_eq_nil_iff.mp hempty.2).1 (hne g List.mem_cons_self)
  | cons part parts ih =>
    cases groups with
    | nil => exact Nat.zero_le _
    | cons g groups =>
      obtain ⟨hpart,hlater⟩ := List.forall_mem_cons.mp hparts
      obtain ⟨-,hrest⟩ := List.forall_mem_cons.mp hne
      rw [List.isChain_cons] at hchain
      rw [List.flatten_cons,List.flatten_cons,← List.append_assoc] at hcover
      apply Nat.succ_le_succ
      rcases List.append_eq_append_iff.mp hcover with ⟨rest,-,hrest'⟩ | ⟨more,hmore,hrest'⟩
      · exact ih hrest hchain.2 hlater hrest'
      · cases more with
        | nil =>
          have hsame : parts.flatten = []++groups.flatten := hrest'.symm
          exact ih hrest hchain.2 hlater hsame
        | cons a more =>
          -- the part would hold the whole group and the next item
          cases groups with
          | nil => cases hrest'
          | cons h groups =>
            obtain ⟨b,h',rfl⟩ := List.exists_cons_of_ne_nil (hrest h List.mem_cons_self)
            have hfull : limit < total size g+size b := hchain.1 _ rfl b rfl
            have hsame : b = a := (List.cons.inj hrest').1
            rw [hmore,hsame.symm] at hpart
            simp only [total,List.map_append,List.sum_append,List.map_cons,List.sum_cons]
              at hpart hfull
            omega

end Packing
