import LawyerAgent.Searching.Bisection
import Mathlib.Data.List.Infix

/-!
# Token windows

A text is cut into windows of at most 512 tokens by a counter that nothing is
known of. A window is found by bisection over the characters that are left.
-/

set_option autoImplicit false

namespace LawyerAgent.EmbeddingWindows
open Searching

abbrev Text : Type := List Char

def tokenLimit : ℕ := 512

/-- The pieces that were yielded, and the error that ended the iterator. -/
structure Windows where
  pieces : List Text
  raised : Option String

def Windows.after (piece : Text) (w : Windows) : Windows := { w with pieces := piece::w.pieces }

def stopped (message : String) : Windows := ⟨[],some message⟩

variable (countTokens : Text → ℤ)

def fits (piece : Text) : Except String Bool :=
  if countTokens piece < 1 then .error "invalid embedding token count"
  else .ok (decide (countTokens piece ≤ tokenLimit))

/-- The length of the next window; `rest` is the text from `start` on. -/
def accept (rest : Text) : Except String ℕ :=
  bisect (fun middle => fits countTokens (rest.take middle)) 1 (min tokenLimit rest.length+1) 0

variable {rest : Text}

theorem accept_bound {accepted : ℕ} (h : accept countTokens rest = .ok accepted)
    (hne : accepted ≠ 0) :
    accepted ≤ rest.length ∧ fits countTokens (rest.take accepted) = .ok true := by
  rcases bisect_found h with hzero | ⟨_,hstop,hfits⟩
  · exact absurd hzero hne
  · exact ⟨by omega,hfits⟩

def windowsFrom (rest : Text) : Windows :=
  if rest = [] then ⟨[],none⟩
  else
    match _haccept : accept countTokens rest with
    | .error message => stopped message
    | .ok accepted =>
      if _hzero : accepted = 0 then stopped "embedding character exceeds token budget"
      else
        match fits countTokens (rest.take accepted) with
        | .error message => stopped message
        | .ok false => stopped "embedding tokenizer is inconsistent"
        | .ok true => (windowsFrom (rest.drop accepted)).after (rest.take accepted)
termination_by rest.length
decreasing_by
  have hbound := (accept_bound countTokens _haccept _hzero).1
  rw [List.length_drop]
  omega

def tokenWindows (text : Text) : Windows :=
  if text = [] then stopped "embedding input must be nonempty"
  else
    match fits countTokens text with
    | .error message => stopped message
    | .ok true => ⟨[text],none⟩
    | .ok false => windowsFrom countTokens text

variable {countTokens : Text → ℤ}

structure Fitting (countTokens : Text → ℤ) (piece : Text) : Prop where
  nonempty : piece ≠ []
  counted : 1 ≤ countTokens piece
  limited : countTokens piece ≤ tokenLimit

theorem fits_true {piece : Text} (h : fits countTokens piece = .ok true) :
    1 ≤ countTokens piece ∧ countTokens piece ≤ tokenLimit := by
  rw [fits] at h
  by_cases hcount : countTokens piece < 1
  · rw [if_pos hcount] at h
    cases h
  · rw [if_neg hcount] at h
    have hlimit : decide (countTokens piece ≤ tokenLimit) = true := Except.ok.inj h
    exact ⟨by omega,of_decide_eq_true hlimit⟩

theorem fits_counted {piece : Text} (h : 1 ≤ countTokens piece) :
    fits countTokens piece = .ok (decide (countTokens piece ≤ tokenLimit)) := by
  have hcount : ¬countTokens piece < 1 := by omega
  rw [fits,if_neg hcount]

theorem fitting_take {accepted : ℕ} (hne : rest ≠ []) (hzero : accepted ≠ 0)
    (h : fits countTokens (rest.take accepted) = .ok true) :
    Fitting countTokens (rest.take accepted) := by
  obtain ⟨hcounted,hlimited⟩ := fits_true h
  refine ⟨?_,hcounted,hlimited⟩
  intro hnil
  rcases List.take_eq_nil_iff.mp hnil with haccepted | hrest
  · exact hzero haccepted
  · exact hne hrest

/-- What was yielded is the front of the text, and all of it if nothing was raised. -/
structure Splits (countTokens : Text → ℤ) (text : Text) (w : Windows) : Prop where
  front : w.pieces.flatten <+: text
  fitting : ∀ piece ∈ w.pieces, Fitting countTokens piece
  whole : w.raised = none → w.pieces.flatten = text

theorem stopped_splits (text : Text) (message : String) :
    Splits countTokens text (stopped message) :=
  ⟨List.nil_prefix,nofun,nofun⟩

theorem after_splits {accepted : ℕ} {w : Windows}
    (hfitting : Fitting countTokens (rest.take accepted))
    (h : Splits countTokens (rest.drop accepted) w) :
    Splits countTokens rest (w.after (rest.take accepted)) := by
  refine ⟨?_,?_,?_⟩
  · have hfront := (List.prefix_append_right_inj (rest.take accepted)).mpr h.front
    rw [List.take_append_drop] at hfront
    exact hfront
  · intro piece hpiece
    rcases List.mem_cons.mp hpiece with rfl | hpiece
    · exact hfitting
    · exact h.fitting piece hpiece
  · intro hraised
    change rest.take accepted++w.pieces.flatten = rest
    rw [h.whole hraised,List.take_append_drop]

theorem windowsFrom_round (hne : rest ≠ []) :
    (∃ message, windowsFrom countTokens rest = stopped message ∧
      (accept countTokens rest = .error message ∨ accept countTokens rest = .ok 0 ∨
        ∃ accepted, accept countTokens rest = .ok accepted ∧ accepted ≠ 0 ∧
          fits countTokens (rest.take accepted) ≠ .ok true)) ∨
    ∃ accepted, accept countTokens rest = .ok accepted ∧ accepted ≠ 0 ∧
      fits countTokens (rest.take accepted) = .ok true ∧
      windowsFrom countTokens rest =
        (windowsFrom countTokens (rest.drop accepted)).after (rest.take accepted) := by
  rw [windowsFrom,if_neg hne]
  split
  · next message haccept => exact .inl ⟨message,rfl,.inl haccept⟩
  · next accepted haccept =>
    by_cases hzero : accepted = 0
    · rw [dif_pos hzero]
      exact .inl ⟨_,rfl,.inr (.inl (hzero ▸ haccept))⟩
    rw [dif_neg hzero]
    cases hfits : fits countTokens (rest.take accepted) with
    | error message => exact .inl ⟨message,rfl,.inr (.inr ⟨accepted,haccept,hzero,by simp [hfits]⟩)⟩
    | ok outcome =>
      cases outcome with
      | false => exact .inl ⟨_,rfl,.inr (.inr ⟨accepted,haccept,hzero,by simp [hfits]⟩)⟩
      | true => exact .inr ⟨accepted,haccept,hzero,hfits,rfl⟩

theorem windowsFrom_splits (rest : Text) :
    Splits countTokens rest (windowsFrom countTokens rest) := by
  induction hlength : rest.length using Nat.strong_induction_on generalizing rest with
  | h length ih =>
    by_cases hne : rest = []
    · rw [windowsFrom,if_pos hne,hne]
      exact ⟨List.nil_prefix,nofun,fun _ => rfl⟩
    rcases windowsFrom_round hne with ⟨message,hstopped,-⟩ | ⟨accepted,haccept,hzero,hfits,hround⟩
    · rw [hstopped]
      exact stopped_splits rest message
    · rw [hround]
      have hbound := (accept_bound countTokens haccept hzero).1
      have hshorter : (rest.drop accepted).length < length := by
        rw [List.length_drop]
        omega
      exact after_splits (fitting_take hne hzero hfits) (ih _ hshorter (rest.drop accepted) rfl)

/-- Every piece of the text counts at least one token, and a single character fits. -/
structure Counts (countTokens : Text → ℤ) (text : Text) : Prop where
  positive : ∀ piece, piece ≠ [] → piece <:+: text → 1 ≤ countTokens piece
  single : ∀ c ∈ text, countTokens [c] ≤ tokenLimit

theorem counts_drop {text : Text} (h : Counts countTokens text) (n : ℕ) :
    Counts countTokens (text.drop n) :=
  ⟨fun piece hne hpiece => h.positive piece hne (hpiece.trans (List.drop_suffix n text).isInfix),
    fun c hc => h.single c (List.mem_of_mem_drop hc)⟩

theorem fits_take (h : Counts countTokens rest) (hne : rest ≠ []) {n : ℕ} (hn : 1 ≤ n) :
    fits countTokens (rest.take n) =
      .ok (decide (countTokens (rest.take n) ≤ tokenLimit)) := by
  apply fits_counted
  apply h.positive
  · intro hnil
    rcases List.take_eq_nil_iff.mp hnil with hzero | hrest
    · omega
    · exact hne hrest
  · exact (List.take_prefix n rest).isInfix

theorem accept_counts (h : Counts countTokens rest) (hne : rest ≠ []) :
    ∃ accepted, accept countTokens rest = .ok accepted ∧ accepted ≠ 0 := by
  cases haccept : accept countTokens rest with
  | error message =>
    obtain ⟨n,hlow,-,herror⟩ := bisect_error haccept
    rw [fits_take h hne hlow] at herror
    cases herror
  | ok accepted =>
    have hfirst : fits countTokens (rest.take 1) = .ok true := by
      rw [fits_take h hne (Nat.le_refl 1)]
      cases rest with
      | nil => exact absurd rfl hne
      | cons c cs =>
        have hsingle := h.single c List.mem_cons_self
        rw [List.take_succ_cons,List.take_zero,decide_eq_true hsingle]
    have hpositive : 0 < rest.length := List.length_pos_of_ne_nil hne
    have hlow := (bisect_first (by unfold tokenLimit; omega) hfirst haccept).1
    exact ⟨accepted,rfl,by omega⟩

theorem windowsFrom_counts (h : Counts countTokens rest) :
    (windowsFrom countTokens rest).raised = none := by
  induction hlength : rest.length using Nat.strong_induction_on generalizing rest with
  | h length ih =>
    by_cases hne : rest = []
    · rw [windowsFrom,if_pos hne]
    obtain ⟨accepted,haccept,hzero⟩ := accept_counts h hne
    obtain ⟨hbound,hfits⟩ := accept_bound countTokens haccept hzero
    rcases windowsFrom_round hne with ⟨message,-,hstopped⟩ | ⟨n,hn,-,-,hround⟩
    · rcases hstopped with herror | hnothing | ⟨n,hn,-,hunfit⟩
      · rw [haccept] at herror
        cases herror
      · rw [haccept] at hnothing
        exact absurd (Except.ok.inj hnothing) hzero
      · rw [haccept] at hn
        cases hn
        exact absurd hfits hunfit
    · rw [haccept] at hn
      cases hn
      rw [hround]
      have hshorter : (rest.drop accepted).length < length := by
        rw [List.length_drop]
        omega
      exact ih _ hshorter (counts_drop h accepted) rfl

/-- The windows are the text in fitting pieces, or an error is raised; none is
raised when every piece counts a token and every character fits. -/
theorem token_windows_split (countTokens : Text → ℤ) (text : Text) :
    (∀ piece ∈ (tokenWindows countTokens text).pieces,
      piece ≠ [] ∧ 1 ≤ countTokens piece ∧ countTokens piece ≤ tokenLimit) ∧
    ((tokenWindows countTokens text).raised = none →
      (tokenWindows countTokens text).pieces.flatten = text) ∧
    ((∀ piece, piece ≠ [] → piece <:+: text → 1 ≤ countTokens piece) →
      (∀ c ∈ text, countTokens [c] ≤ tokenLimit) → text ≠ [] →
      (tokenWindows countTokens text).raised = none) := by
  have hsplits : Splits countTokens text (tokenWindows countTokens text) := by
    rw [tokenWindows]
    by_cases hne : text = []
    · rw [if_pos hne]
      exact stopped_splits text _
    rw [if_neg hne]
    cases hfits : fits countTokens text with
    | error message => exact stopped_splits text message
    | ok whole =>
      cases whole with
      | false => exact windowsFrom_splits text
      | true =>
        have hflatten : [text].flatten = text := List.append_nil text
        refine ⟨?_,?_,fun _ => hflatten⟩
        · dsimp only
          rw [hflatten]
        intro piece hpiece
        obtain rfl := List.mem_singleton.mp hpiece
        exact ⟨hne,(fits_true hfits).1,(fits_true hfits).2⟩
  refine ⟨?_,hsplits.whole,?_⟩
  · intro piece hpiece
    have hfitting := hsplits.fitting piece hpiece
    exact ⟨hfitting.nonempty,hfitting.counted,hfitting.limited⟩
  · intro hpositive hsingle hne
    rw [tokenWindows,if_neg hne,fits_counted (hpositive text hne List.infix_rfl)]
    cases hwhole : decide (countTokens text ≤ tokenLimit) with
    | true => rfl
    | false => exact windowsFrom_counts ⟨hpositive,hsingle⟩

/-- Three characters of 300 tokens each are not one window. -/
theorem long_text_split :
    (tokenWindows (fun piece => 300*(piece.length : ℤ)) ['a','b','c']).raised = none ∧
    (tokenWindows (fun piece => 300*(piece.length : ℤ)) ['a','b','c']).pieces.flatten =
      ['a','b','c'] := by
  have hsplit := token_windows_split (fun piece => 300*(piece.length : ℤ)) ['a','b','c']
  have hnone : (tokenWindows (fun piece => 300*(piece.length : ℤ)) ['a','b','c']).raised =
    none := by
    apply hsplit.2.2
    · intro piece hne _
      have hlength := List.length_pos_of_ne_nil hne
      omega
    · intro c _
      rw [List.length_singleton]
      decide
    · exact List.cons_ne_nil _ _
  exact ⟨hnone,hsplit.2.1 hnone⟩

/-- A counter that finds no token in a pair of characters. -/
def pairless (piece : Text) : ℤ := if piece.length = 1 then 1 else 0

theorem pair_uncounted : (∀ c : Char, pairless [c] ≤ tokenLimit) ∧ ['a','b'] ≠ [] ∧
    (tokenWindows pairless ['a','b']).raised = some "invalid embedding token count" := by
  refine ⟨?_,List.cons_ne_nil _ _,rfl⟩
  intro c
  rw [pairless,List.length_singleton]
  decide

end LawyerAgent.EmbeddingWindows
