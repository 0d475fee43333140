import LawyerAgent.Paging.Follow
import Mathlib.Data.List.Sort

/-!
# Keyset pages

The rows of a table in the order of a key, from a position on. A page takes one
row more than it shows, which tells whether there is a page behind it; its last
row is the position of that page.
-/

set_option autoImplicit false

namespace Paging

variable {α κ : Type} [LinearOrder κ] (key : α → κ)

def ordered (rows : List α) : List α := rows.insertionSort fun a b => key a ≤ key b

def behind (rows : List α) (after : Option κ) : List α :=
  ordered key (rows.filter fun a => after.all fun k => k < key a)

variable {key}

theorem ordered_perm (rows : List α) : (ordered key rows).Perm rows := List.perm_insertionSort _ _

theorem ordered_strict {rows : List α} (h : (rows.map key).Nodup) :
    (ordered key rows).Pairwise fun a b => key a < key b := by
  have htotal : Std.Total fun a b : α => key a ≤ key b := ⟨fun a b => le_total _ _⟩
  have htrans : IsTrans α fun a b => key a ≤ key b := ⟨fun _ _ _ => le_trans⟩
  have hsorted : (ordered key rows).Pairwise fun a b => key a ≤ key b :=
    List.pairwise_insertionSort _ rows
  have hnodup : (ordered key rows).Pairwise fun a b => key a ≠ key b :=
    List.pairwise_map.mp (((ordered_perm rows).map key).nodup_iff.mpr h)
  exact hsorted.imp₂ (fun _ _ => lt_of_le_of_ne) hnodup

theorem behind_none (rows : List α) : behind key rows none = ordered key rows := by
  have hfilter : (rows.filter fun a => (none : Option κ).all fun k => k < key a) = rows :=
    List.filter_eq_self.mpr fun _ _ => rfl
  rw [behind,hfilter]

theorem strict_unique {rows others : List α} (hperm : rows.Perm others)
    (h : rows.Pairwise fun a b => key a < key b) (h' : others.Pairwise fun a b => key a < key b) :
    rows = others :=
  hperm.eq_of_pairwise (fun _ _ _ _ hab hba => absurd hba (lt_asymm hab)) h h'

theorem behind_rest {rows before rest : List α} {x : α} (h : (rows.map key).Nodup)
    (hsplit : ordered key rows = before++x::rest) : behind key rows (some (key x)) = rest := by
  have hstrict := ordered_strict h
  rw [hsplit] at hstrict
  obtain ⟨-,htail,hcross⟩ := List.pairwise_append.mp hstrict
  obtain ⟨hnext,hrest⟩ := List.pairwise_cons.mp htail
  have hnone : before.filter (fun a => decide (key x < key a)) = [] := by
    apply List.filter_eq_nil_iff.mpr
    intro a ha hlt
    exact lt_asymm (hcross a ha x List.mem_cons_self) (of_decide_eq_true hlt)
  have hall : rest.filter (fun a => decide (key x < key a)) = rest :=
    List.filter_eq_self.mpr fun a ha => decide_eq_true (hnext a ha)
  have hfilter : (ordered key rows).filter (fun a => decide (key x < key a)) = rest := by
    rw [hsplit,List.filter_append,hnone,List.filter_cons_of_neg (by simp),hall]
    rfl
  have hperm : (behind key rows (some (key x))).Perm rest := by
    rw [← hfilter]
    exact (ordered_perm _).trans ((ordered_perm rows).symm.filter _)
  apply strict_unique hperm _ hrest
  exact ordered_strict (h.sublist (List.filter_sublist.map key))

theorem last_page {rest : List α} {limit : ℕ} (h : (rest.take (limit+1)).length ≤ limit) :
    (rest.take (limit+1)).take limit = rest := by
  rw [List.length_take] at h
  rw [List.take_take,List.take_of_length_le (by omega)]

theorem full_page {rest : List α} {limit : ℕ} (hlimit : 0 < limit)
    (h : limit < (rest.take (limit+1)).length) : ∃ part x left, rest = (part++[x])++left ∧
      (rest.take (limit+1)).take limit = part++[x] ∧ left ≠ [] := by
  rw [List.length_take] at h
  have hne : rest.take limit ≠ [] := by
    rw [← List.length_pos_iff,List.length_take]
    omega
  refine ⟨(rest.take limit).dropLast,(rest.take limit).getLast hne,rest.drop limit,?_,?_,?_⟩
  · rw [List.dropLast_append_getLast,List.take_append_drop]
  · rw [List.dropLast_append_getLast,List.take_take,min_eq_left (Nat.le_succ limit)]
  · rw [ne_eq,List.drop_eq_nil_iff]
    omega

theorem shows_last {β : Type} {R : β → α → Prop} {items : List β} {part : List α} {x : α}
    (h : List.Forall₂ R items (part++[x])) : ∃ item, items.getLast? = some item ∧ R item x := by
  induction part generalizing items with
  | nil =>
    cases h with
    | cons hitem hnil =>
      cases hnil
      exact ⟨_,rfl,hitem⟩
  | cons y part ih =>
    cases h with
    | cons _ hrest =>
      obtain ⟨item,hlast,hitem⟩ := ih hrest
      refine ⟨item,?_,hitem⟩
      rw [List.getLast?_cons,hlast]
      rfl

/-- A cursor of a row stands in front of the rows that follow it. -/
def Behind {γ : Type} (key : α → κ) (rows : List α) (cursorOf : α → γ) (cursor : Option γ)
    (rest : List α) : Prop :=
  cursor = none ∧ rest = ordered key rows ∨
    ∃ before x, cursor = some (cursorOf x) ∧ ordered key rows = before++x::rest

variable {ε β γ : Type} {page : Option γ → Except ε β} {next : β → Option γ}
  {shows : β → List α → Prop} {rows : List α} {limit : ℕ} {cursorOf : α → γ}

theorem behind_front {cursor : Option γ} {rest : List α}
    (h : Behind key rows cursorOf cursor rest) :
    ∃ front, ordered key rows = front++rest := by
  rcases h with ⟨-,rfl⟩ | ⟨before,x,-,hsplit⟩
  · exact ⟨[],rfl⟩
  · exact ⟨before++[x],by rw [hsplit,List.append_assoc]; rfl⟩

/-- Pages that look one row ahead and name their last row show every row once and in order. -/
theorem follow_behind (hlimit : 0 < limit)
    (hpage : ∀ cursor rest, Behind key rows cursorOf cursor rest → ∃ b, page cursor = .ok b ∧
      shows b (rest.take limit) ∧ next b = if limit < (rest.take (limit+1)).length then
        (rest.take limit).getLast?.map cursorOf else none) :
    ∃ bs parts, Follows page next none bs none ∧ List.Forall₂ shows bs parts ∧
      parts.flatten = ordered key rows := by
  have hturn : ∀ cursor rest, Behind key rows cursorOf cursor rest →
      Turn page next (Behind key rows cursorOf) shows none cursor rest := by
    intro cursor rest hplace
    obtain ⟨b,hok,hshows,hnext⟩ := hpage cursor rest hplace
    by_cases hmore : limit < (rest.take (limit+1)).length
    · obtain ⟨front,hfront⟩ := behind_front hplace
      obtain ⟨part,x,left,hsplit,htake,-⟩ := full_page hlimit hmore
      have htaken : rest.take limit = part++[x] := by
        rw [← htake,List.take_take,min_eq_left (Nat.le_succ limit)]
      rw [if_pos hmore,htaken,List.getLast?_append_cons,List.getLast?_singleton] at hnext
      have hleft : Behind key rows cursorOf (some (cursorOf x)) left := by
        refine .inr ⟨front++part,x,rfl,?_⟩
        rw [hfront,hsplit]
        simp
      rw [htaken] at hshows
      rw [hsplit]
      exact .more hok hnext (by simp) hshows hleft
    · have hall : rest.take limit = rest := by
        rw [List.length_take] at hmore
        exact List.take_of_length_le (by omega)
      rw [if_neg hmore] at hnext
      rw [hall] at hshows
      exact .last hok hnext hshows rfl
  exact follow_all hturn (.inl ⟨rfl,rfl⟩)

end Paging
