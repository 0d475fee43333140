import Mathlib.Data.List.Forall2

/-!
# Following a cursor

A reader delivers pages. A page may name the cursor of the page after it, and a
client follows these cursors until a page names none or the reader refuses.
-/

set_option autoImplicit false

namespace Paging

variable {ε β γ α : Type} {page : Option γ → Except ε β} {next : β → Option γ}

/-- The pages that are delivered from a cursor on, and the error that ends them. -/
inductive Follows (page : Option γ → Except ε β) (next : β → Option γ) :
    Option γ → List β → Option ε → Prop
  | last {cursor : Option γ} {b : β} (h : page cursor = .ok b) (hnext : next b = none) :
      Follows page next cursor [b] none
  | refused {cursor : Option γ} {e : ε} (h : page cursor = .error e) :
      Follows page next cursor [] (some e)
  | more {cursor : Option γ} {b : β} {c : γ} {bs : List β} {e : Option ε}
      (h : page cursor = .ok b) (hnext : next b = some c)
      (hrest : Follows page next (some c) bs e) : Follows page next cursor (b::bs) e

theorem follows_unique {cursor : Option γ} {bs bs' : List β} {e e' : Option ε}
    (h : Follows page next cursor bs e) (h' : Follows page next cursor bs' e') :
    bs = bs' ∧ e = e' := by
  induction h generalizing bs' e' with
  | last h hnext =>
    cases h' with
    | last h' => exact ⟨by rw [Except.ok.inj (h.symm.trans h')],rfl⟩
    | refused h' => cases h.symm.trans h'
    | more h' hnext' =>
      cases Except.ok.inj (h.symm.trans h')
      cases hnext.symm.trans hnext'
  | refused h =>
    cases h' with
    | last h' => cases h.symm.trans h'
    | refused h' => exact ⟨rfl,by rw [Except.error.inj (h.symm.trans h')]⟩
    | more h' => cases h.symm.trans h'
  | more h hnext _ ih =>
    cases h' with
    | last h' hnext' =>
      cases Except.ok.inj (h.symm.trans h')
      cases hnext.symm.trans hnext'
    | refused h' => cases h.symm.trans h'
    | more h' hnext' hrest' =>
      cases Except.ok.inj (h.symm.trans h')
      cases Option.some.inj (hnext.symm.trans hnext')
      obtain ⟨hbs,he⟩ := ih hrest'
      exact ⟨by rw [hbs],he⟩

variable {place : Option γ → List α → Prop} {shows : β → List α → Prop} {outcome : Option ε}

/-- One turn at a cursor in front of the items `rest`: the last page shows all of
them, another page shows some of them and names a cursor in front of the others. -/
inductive Turn (page : Option γ → Except ε β) (next : β → Option γ)
    (place : Option γ → List α → Prop) (shows : β → List α → Prop) (outcome : Option ε)
    (cursor : Option γ) : List α → Prop
  | last {rest : List α} {b : β} (h : page cursor = .ok b) (hnext : next b = none)
      (hshows : shows b rest) (hend : outcome = none) :
      Turn page next place shows outcome cursor rest
  | refused {e : ε} (h : page cursor = .error e) (hend : outcome = some e) :
      Turn page next place shows outcome cursor []
  | more {part rest : List α} {b : β} {c : γ} (h : page cursor = .ok b) (hnext : next b = some c)
      (hpart : part ≠ []) (hshows : shows b part) (hplace : place (some c) rest) :
      Turn page next place shows outcome cursor (part++rest)

theorem follow_all
    (h : ∀ cursor rest, place cursor rest → Turn page next place shows outcome cursor rest)
    {cursor : Option γ} {items : List α} (hplace : place cursor items) :
    ∃ bs parts, Follows page next cursor bs outcome ∧ List.Forall₂ shows bs parts ∧
      parts.flatten = items := by
  induction hlength : items.length using Nat.strongRecOn generalizing cursor items with
  | _ n ih =>
    cases h cursor items hplace with
    | last h hnext hshows hend =>
      exact ⟨[_],[_],hend ▸ .last h hnext,.cons hshows .nil,by simp⟩
    | refused h hend => exact ⟨[],[],hend ▸ .refused h,.nil,rfl⟩
    | more h hnext hpart hshows hrest =>
      have hpos := List.length_pos_iff.mpr hpart
      rw [List.length_append] at hlength
      obtain ⟨bs,parts,hfollows,hparts,hflat⟩ := ih _ (by omega) hrest rfl
      exact ⟨_::bs,_::parts,.more h hnext hfollows,.cons hshows hparts,
        by rw [List.flatten_cons,hflat]⟩

theorem shows_view {δ : Type} {items : β → List δ} {view : α → δ} {bs : List β}
    {parts : List (List α)} (h : List.Forall₂ (fun b part => items b = part.map view) bs parts) :
    bs.flatMap items = parts.flatten.map view := by
  induction h with
  | nil => rfl
  | cons hpage _ ih => rw [List.flatMap_cons,List.flatten_cons,List.map_append,ih,hpage]

end Paging
