import Mathlib.Data.List.Nodup

/-!
# Differences of keyed lists

Two lists whose items have distinct keys are compared by key and by text. Every
key of either list falls into one of four groups, and exchanging the lists
exchanges the groups.
-/

set_option autoImplicit false

namespace Diffing

variable {α K T : Type} [DecidableEq K] [DecidableEq T] (key : α → K) (text : α → T)

def find (k : K) (items : List α) : Option α := items.find? fun a => decide (key a = k)

def added (old new : List α) : List α := new.filter fun b => (find key (key b) old).isNone

def removed (old new : List α) : List α := old.filter fun a => (find key (key a) new).isNone

def modified (old new : List α) : List (α × α) :=
  old.filterMap fun a => (find key (key a) new).bind fun b =>
    if text a ≠ text b then some (a,b) else none

def unchanged (old new : List α) : List α :=
  old.filterMap fun a => (find key (key a) new).bind fun b =>
    if text a ≠ text b then none else some b

def groupKeys (old new : List α) : List K :=
  (added key old new).map key++(removed key old new).map key++
    (modified key text old new).map (fun m => key m.1)++(unchanged key text old new).map key

variable {key text} {old new : List α}

variable {items : List α} {k : K}

theorem find_none : find key k items = none ↔ k ∉ items.map key := by
  rw [find,List.find?_eq_none]
  simp

theorem find_some (honce : (items.map key).Nodup) {a : α} :
    find key k items = some a ↔ a ∈ items ∧ key a = k := by
  constructor
  · intro h
    have hkey := List.find?_some (p := fun a => decide (key a = k)) h
    exact ⟨List.mem_of_find?_eq_some h,of_decide_eq_true hkey⟩
  · rintro ⟨ha,rfl⟩
    cases hfound : find key (key a) items with
    | none => exact absurd (List.mem_map_of_mem ha) (find_none.mp hfound)
    | some b =>
      have hkey := List.find?_some (p := fun b => decide (key b = key a)) hfound
      exact congrArg some (List.inj_on_of_nodup_map honce (List.mem_of_find?_eq_some hfound) ha
        (of_decide_eq_true hkey))

theorem mem_removed {a : α} : a ∈ removed key old new ↔ a ∈ old ∧ key a ∉ new.map key := by
  rw [removed,List.mem_filter,Option.isNone_iff_eq_none,find_none]

theorem mem_added {b : α} : b ∈ added key old new ↔ b ∈ new ∧ key b ∉ old.map key := mem_removed

theorem mem_modified (hnew : (new.map key).Nodup) {m : α × α} :
    m ∈ modified key text old new ↔
      m.1 ∈ old ∧ m.2 ∈ new ∧ key m.2 = key m.1 ∧ text m.1 ≠ text m.2 := by
  rw [modified,List.mem_filterMap]
  constructor
  · rintro ⟨a,ha,hb⟩
    obtain ⟨b,hfound,hb⟩ := Option.bind_eq_some_iff.mp hb
    obtain ⟨hmem,hkey⟩ := (find_some hnew).mp hfound
    by_cases htext : text a ≠ text b
    · rw [if_pos htext] at hb
      cases hb
      exact ⟨ha,hmem,hkey,htext⟩
    · rw [if_neg htext] at hb
      cases hb
  · rintro ⟨ha,hb,hkey,htext⟩
    refine ⟨m.1,ha,?_⟩
    rw [(find_some hnew).mpr ⟨hb,hkey⟩,Option.bind_some,if_pos htext]

theorem mem_unchanged (hnew : (new.map key).Nodup) {b : α} :
    b ∈ unchanged key text old new ↔ b ∈ new ∧ ∃ a ∈ old, key b = key a ∧ text a = text b := by
  rw [unchanged,List.mem_filterMap]
  constructor
  · rintro ⟨a,ha,hb⟩
    obtain ⟨c,hfound,hb⟩ := Option.bind_eq_some_iff.mp hb
    obtain ⟨hmem,hkey⟩ := (find_some hnew).mp hfound
    by_cases htext : text a ≠ text c
    · rw [if_pos htext] at hb
      cases hb
    · rw [if_neg htext] at hb
      cases hb
      exact ⟨hmem,a,ha,hkey,not_not.mp htext⟩
  · rintro ⟨hb,a,ha,hkey,htext⟩
    refine ⟨a,ha,?_⟩
    rw [(find_some hnew).mpr ⟨hb,hkey⟩,Option.bind_some,if_neg (not_not.mpr htext)]

theorem added_keys : k ∈ (added key old new).map key ↔
    k ∈ new.map key ∧ k ∉ old.map key := by
  constructor
  · intro h
    obtain ⟨b,hb,rfl⟩ := List.mem_map.mp h
    exact ⟨List.mem_map_of_mem (mem_added.mp hb).1,(mem_added.mp hb).2⟩
  · rintro ⟨hnew,hold⟩
    obtain ⟨b,hb,rfl⟩ := List.mem_map.mp hnew
    exact List.mem_map_of_mem (mem_added.mpr ⟨hb,hold⟩)

theorem removed_keys : k ∈ (removed key old new).map key ↔
    k ∈ old.map key ∧ k ∉ new.map key := added_keys

theorem modified_keys (hnew : (new.map key).Nodup) :
    k ∈ (modified key text old new).map (fun m => key m.1) ↔
      ∃ a ∈ old, ∃ b ∈ new, key a = k ∧ key b = k ∧ text a ≠ text b := by
  constructor
  · intro h
    obtain ⟨m,hm,rfl⟩ := List.mem_map.mp h
    obtain ⟨ha,hb,hkey,htext⟩ := (mem_modified hnew).mp hm
    exact ⟨m.1,ha,m.2,hb,rfl,hkey,htext⟩
  · rintro ⟨a,ha,b,hb,rfl,hkey,htext⟩
    exact List.mem_map.mpr ⟨(a,b),(mem_modified hnew).mpr ⟨ha,hb,hkey,htext⟩,rfl⟩

theorem unchanged_keys (hnew : (new.map key).Nodup) :
    k ∈ (unchanged key text old new).map key ↔
      ∃ a ∈ old, ∃ b ∈ new, key a = k ∧ key b = k ∧ text a = text b := by
  constructor
  · intro h
    obtain ⟨b,hb,rfl⟩ := List.mem_map.mp h
    obtain ⟨hmem,a,ha,hkey,htext⟩ := (mem_unchanged hnew).mp hb
    exact ⟨a,ha,b,hmem,hkey.symm,rfl,htext⟩
  · rintro ⟨a,ha,b,hb,hak,rfl,htext⟩
    exact List.mem_map.mpr ⟨b,(mem_unchanged hnew).mpr ⟨hb,a,ha,hak.symm,htext⟩,rfl⟩

theorem modified_texts (hnew : (new.map key).Nodup) :
    k ∈ (modified key text old new).map (fun m => key m.1) ↔
      ∃ t u, (k,t) ∈ old.map (fun a => (key a,text a)) ∧
        (k,u) ∈ new.map (fun b => (key b,text b)) ∧ t ≠ u := by
  rw [modified_keys hnew]
  constructor
  · rintro ⟨a,ha,b,hb,hak,hbk,htext⟩
    exact ⟨text a,text b,List.mem_map.mpr ⟨a,ha,by rw [hak]⟩,List.mem_map.mpr ⟨b,hb,by rw [hbk]⟩,
      htext⟩
  · rintro ⟨t,u,ht,hu,htext⟩
    obtain ⟨a,ha,hak⟩ := List.mem_map.mp ht
    obtain ⟨b,hb,hbk⟩ := List.mem_map.mp hu
    cases hak
    exact ⟨a,ha,b,hb,rfl,(Prod.mk.inj hbk).1,(Prod.mk.inj hbk).2 ▸ htext⟩

theorem unchanged_texts (hnew : (new.map key).Nodup) :
    k ∈ (unchanged key text old new).map key ↔
      ∃ t, (k,t) ∈ old.map (fun a => (key a,text a)) ∧
        (k,t) ∈ new.map fun b => (key b,text b) := by
  rw [unchanged_keys hnew]
  constructor
  · rintro ⟨a,ha,b,hb,hak,hbk,htext⟩
    exact ⟨text a,List.mem_map.mpr ⟨a,ha,by rw [hak]⟩,
      List.mem_map.mpr ⟨b,hb,by rw [hbk,htext]⟩⟩
  · rintro ⟨t,ht,hu⟩
    obtain ⟨a,ha,hak⟩ := List.mem_map.mp ht
    obtain ⟨b,hb,hbk⟩ := List.mem_map.mp hu
    cases hak
    exact ⟨a,ha,b,hb,rfl,(Prod.mk.inj hbk).1,(Prod.mk.inj hbk).2.symm⟩

omit [DecidableEq K] in
theorem same_item (honce : (items.map key).Nodup) {a b : α} (ha : a ∈ items) (hb : b ∈ items)
    (h : key a = key b) : a = b := List.inj_on_of_nodup_map honce ha hb h

omit [DecidableEq K] in
theorem filterMap_keys_nodup {β : Type} (f : α → Option β) (g : β → K)
    (hg : ∀ a b, f a = some b → g b = key a) (honce : (old.map key).Nodup) :
    ((old.filterMap f).map g).Nodup := by
  induction old with
  | nil => exact List.nodup_nil
  | cons a items ih =>
    obtain ⟨hfresh,honce⟩ := List.nodup_cons.mp honce
    cases hf : f a with
    | none =>
      rw [List.filterMap_cons_none hf]
      exact ih honce
    | some b =>
      rw [List.filterMap_cons_some hf,List.map_cons,List.nodup_cons]
      refine ⟨?_,ih honce⟩
      intro hmem
      obtain ⟨c,hc,hkey⟩ := List.mem_map.mp hmem
      obtain ⟨d,hd,hfd⟩ := List.mem_filterMap.mp hc
      rw [hg a b hf,hg d c hfd] at hkey
      exact hfresh (hkey ▸ List.mem_map_of_mem hd)

theorem modified_once (hold : (old.map key).Nodup) :
    ((modified key text old new).map fun m => key m.1).Nodup := by
  apply filterMap_keys_nodup _ _ _ hold
  intro a m h
  obtain ⟨b,-,hb⟩ := Option.bind_eq_some_iff.mp h
  split at hb
  · cases hb
    rfl
  · cases hb

theorem unchanged_once (hold : (old.map key).Nodup) (hnew : (new.map key).Nodup) :
    ((unchanged key text old new).map key).Nodup := by
  apply filterMap_keys_nodup _ _ _ hold
  intro a c h
  obtain ⟨b,hfound,hb⟩ := Option.bind_eq_some_iff.mp h
  split at hb
  · cases hb
  · cases hb
    exact ((find_some hnew).mp hfound).2

theorem groups_partition (hold : (old.map key).Nodup) (hnew : (new.map key).Nodup) :
    (groupKeys key text old new).Nodup ∧
      ∀ k, k ∈ groupKeys key text old new ↔ k ∈ old.map key ∨ k ∈ new.map key := by
  constructor
  · rw [groupKeys,List.nodup_append',List.nodup_append',List.nodup_append']
    refine ⟨⟨⟨hnew.sublist (List.filter_sublist.map key),
      hold.sublist (List.filter_sublist.map key),?_⟩,modified_once hold,?_⟩,
      unchanged_once hold hnew,?_⟩
    · intro k hadded hremoved
      exact (added_keys.mp hadded).2 (removed_keys.mp hremoved).1
    · intro k hfirst hmodified
      obtain ⟨a,ha,b,hb,hak,hbk,-⟩ := (modified_keys hnew).mp hmodified
      rcases List.mem_append.mp hfirst with hadded | hremoved
      · exact (added_keys.mp hadded).2 (hak ▸ List.mem_map_of_mem ha)
      · exact (removed_keys.mp hremoved).2 (hbk ▸ List.mem_map_of_mem hb)
    · intro k hfirst hunchanged
      obtain ⟨a,ha,b,hb,hak,hbk,htext⟩ := (unchanged_keys hnew).mp hunchanged
      rcases List.mem_append.mp hfirst with hfirst | hmodified
      · rcases List.mem_append.mp hfirst with hadded | hremoved
        · exact (added_keys.mp hadded).2 (hak ▸ List.mem_map_of_mem ha)
        · exact (removed_keys.mp hremoved).2 (hbk ▸ List.mem_map_of_mem hb)
      · obtain ⟨c,hc,d,hd,hck,hdk,hne⟩ := (modified_keys hnew).mp hmodified
        obtain rfl := same_item hold ha hc (hak.trans hck.symm)
        obtain rfl := same_item hnew hb hd (hbk.trans hdk.symm)
        exact hne htext
  · intro k
    simp only [groupKeys,List.mem_append]
    constructor
    · rintro (((hadded | hremoved) | hmodified) | hunchanged)
      · exact .inr (added_keys.mp hadded).1
      · exact .inl (removed_keys.mp hremoved).1
      · obtain ⟨a,ha,-,-,rfl,-⟩ := (modified_keys hnew).mp hmodified
        exact .inl (List.mem_map_of_mem ha)
      · obtain ⟨a,ha,-,-,rfl,-⟩ := (unchanged_keys hnew).mp hunchanged
        exact .inl (List.mem_map_of_mem ha)
    · intro hkey
      by_cases holdkey : k ∈ old.map key
      · by_cases hnewkey : k ∈ new.map key
        · obtain ⟨a,ha,rfl⟩ := List.mem_map.mp holdkey
          obtain ⟨b,hb,hbk⟩ := List.mem_map.mp hnewkey
          by_cases htext : text a = text b
          · exact .inr ((unchanged_keys hnew).mpr ⟨a,ha,b,hb,rfl,hbk,htext⟩)
          · exact .inl (.inr ((modified_keys hnew).mpr ⟨a,ha,b,hb,rfl,hbk,htext⟩))
        · exact .inl (.inl (.inr (removed_keys.mpr ⟨holdkey,hnewkey⟩)))
      · exact .inl (.inl (.inl (added_keys.mpr ⟨hkey.resolve_left holdkey,holdkey⟩)))

theorem modified_swap (hold : (old.map key).Nodup) (hnew : (new.map key).Nodup) {a b : α} :
    (a,b) ∈ modified key text old new ↔ (b,a) ∈ modified key text new old := by
  rw [mem_modified hnew,mem_modified hold]
  constructor
  · rintro ⟨ha,hb,hkey,htext⟩
    exact ⟨hb,ha,hkey.symm,htext.symm⟩
  · rintro ⟨hb,ha,hkey,htext⟩
    exact ⟨ha,hb,hkey.symm,htext.symm⟩

theorem unchanged_swap (hold : (old.map key).Nodup) (hnew : (new.map key).Nodup) :
    k ∈ (unchanged key text old new).map key ↔ k ∈ (unchanged key text new old).map key := by
  rw [unchanged_keys hnew,unchanged_keys hold]
  constructor
  · rintro ⟨a,ha,b,hb,hak,hbk,htext⟩
    exact ⟨b,hb,a,ha,hbk,hak,htext.symm⟩
  · rintro ⟨b,hb,a,ha,hbk,hak,htext⟩
    exact ⟨a,ha,b,hb,hak,hbk,htext.symm⟩

theorem nothing_changed (hnew : (new.map key).Nodup) :
    (added key old new = [] ∧ removed key old new = [] ∧ modified key text old new = []) ↔
      ∀ k t, (k,t) ∈ old.map (fun a => (key a,text a)) ↔ (k,t) ∈ new.map fun b =>
        (key b,text b) := by
  constructor
  · rintro ⟨hadded,hremoved,hmodified⟩ k t
    constructor
    · intro h
      obtain ⟨a,ha,hkt⟩ := List.mem_map.mp h
      cases hkt
      have hkey : key a ∈ new.map key := by
        by_contra hno
        exact List.not_mem_nil (hremoved ▸ mem_removed.mpr ⟨ha,hno⟩)
      obtain ⟨b,hb,hbk⟩ := List.mem_map.mp hkey
      have htext : text a = text b := by
        by_contra hne
        have hmem : (a,b) ∈ modified key text old new := (mem_modified hnew).mpr ⟨ha,hb,hbk,hne⟩
        exact List.not_mem_nil (hmodified ▸ hmem)
      exact List.mem_map.mpr ⟨b,hb,by rw [hbk,htext]⟩
    · intro h
      obtain ⟨b,hb,hkt⟩ := List.mem_map.mp h
      cases hkt
      have hkey : key b ∈ old.map key := by
        by_contra hno
        exact List.not_mem_nil (hadded ▸ mem_added.mpr ⟨hb,hno⟩)
      obtain ⟨a,ha,hak⟩ := List.mem_map.mp hkey
      have htext : text a = text b := by
        by_contra hne
        have hmem : (a,b) ∈ modified key text old new :=
          (mem_modified hnew).mpr ⟨ha,hb,hak.symm,hne⟩
        exact List.not_mem_nil (hmodified ▸ hmem)
      exact List.mem_map.mpr ⟨a,ha,by rw [hak,htext]⟩
  · intro h
    refine ⟨?_,?_,?_⟩
    · apply List.eq_nil_iff_forall_not_mem.mpr
      intro b hb
      obtain ⟨hmem,hfresh⟩ := mem_added.mp hb
      obtain ⟨a,ha,hkt⟩ := List.mem_map.mp
        ((h (key b) (text b)).mpr (List.mem_map.mpr ⟨b,hmem,rfl⟩))
      exact hfresh (List.mem_map.mpr ⟨a,ha,(Prod.mk.inj hkt).1⟩)
    · apply List.eq_nil_iff_forall_not_mem.mpr
      intro a ha
      obtain ⟨hmem,hgone⟩ := mem_removed.mp ha
      obtain ⟨b,hb,hkt⟩ := List.mem_map.mp
        ((h (key a) (text a)).mp (List.mem_map.mpr ⟨a,hmem,rfl⟩))
      exact hgone (List.mem_map.mpr ⟨b,hb,(Prod.mk.inj hkt).1⟩)
    · apply List.eq_nil_iff_forall_not_mem.mpr
      intro m hm
      obtain ⟨ha,hb,hkey,htext⟩ := (mem_modified hnew).mp hm
      obtain ⟨c,hc,hkt⟩ := List.mem_map.mp
        ((h (key m.1) (text m.1)).mp (List.mem_map.mpr ⟨m.1,ha,rfl⟩))
      obtain rfl := same_item hnew hc hb ((Prod.mk.inj hkt).1.trans hkey.symm)
      exact htext (Prod.mk.inj hkt).2.symm

end Diffing
