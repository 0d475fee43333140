import LawyerAgent.Numbering.Supplements
import LawyerAgent.ReleaseQuality

/-!
# Sequences of article numbers

What the publication gate lets pass as a sequence: the numbers from one on with
their supplements, or the plain numbers of a reviewed interval.
-/

set_option autoImplicit false

namespace LawyerAgent.ArticleSequences
open Numbering CorpusPublish ReleaseQuality
open LegalArticleHeading

/-- The number and the supplement that an article number is read as. -/
def readNumber (item : Text) : Option (ℕ × Option ℕ) :=
  match Regex.fullmatch? articleNo item with
  | none => if legacyNumeric item then (cnNumber item).map (·,none) else none
  | some m =>
    (cnNumber (m.textOf .article item)).bind fun number =>
      if isSupplement m then (cnNumber (m.textOf .supplement item)).map (number,some ·)
      else some (number,none)

def articleToken (item : Text) : Text :=
  match Regex.fullmatch? articleNo item with
  | none => item
  | some m => m.textOf .article item

theorem cnNumber_pos {token : Text} {n : ℕ} (h : cnNumber token = some n) : 0 < n := by
  unfold cnNumber at h
  dsimp only at h
  split_ifs at h with hdigits hlong hpos
  · cases h
    exact hpos
  · split at h
    · cases h
    · next total hread =>
      split_ifs at h with hrange hcanonical
      cases h
      omega

theorem readNumber_pos {item : Text} {label : ℕ × Option ℕ} (h : readNumber item = some label) :
    0 < label.1 := by
  unfold readNumber at h
  split at h
  · split_ifs at h
    obtain ⟨n,hn,rfl⟩ := Option.map_eq_some_iff.mp h
    exact cnNumber_pos hn
  · obtain ⟨n,hn,h⟩ := Option.bind_eq_some_iff.mp h
    split_ifs at h
    · obtain ⟨part,-,rfl⟩ := Option.map_eq_some_iff.mp h
      exact cnNumber_pos hn
    · cases h
      exact cnNumber_pos hn

theorem continueWith_read (current : ℕ × ℕ) (item : Text) :
    continueWith current item = (readNumber item).bind (advance current) := by
  unfold continueWith readNumber
  cases Regex.fullmatch? articleNo item with
  | none =>
    dsimp only
    split_ifs
    · cases cnNumber item with
      | none => rfl
      | some n => rfl
    · rfl
  | some m =>
    dsimp only
    cases cnNumber (m.textOf .article item) with
    | none => split_ifs <;> rfl
    | some n =>
      simp only [Option.bind_some]
      split_ifs
      · cases cnNumber (m.textOf .supplement item) with
        | none => rfl
        | some part => rfl
      · rfl

theorem reviewedNext_read (current : ℕ × ℕ) (item : Text) :
    reviewedNext current item =
      if leadingZero (articleToken item) = false ∧ readNumber item = some (current.1+1,none)
        then some (current.1+1,0) else none := by
  have hnext : ∀ article : Option ℕ, nextArticle current article =
      if article = some (current.1+1) then some (current.1+1,0) else none := by
    intro article
    cases article with
    | none => rfl
    | some n =>
      by_cases hn : n = current.1+1
      · simp [nextArticle,hn]
      · simp [nextArticle,hn]
  unfold reviewedNext articleToken readNumber
  cases Regex.fullmatch? articleNo item with
  | none =>
    dsimp only
    rw [hnext]
    by_cases hnumeric : legacyNumeric item = true
    · simp only [hnumeric,true_and,if_true,Option.map_eq_some_iff,Prod.mk.injEq,and_true,
        exists_eq_right]
      split_ifs <;> simp_all
    · simp [hnumeric]
  | some m =>
    dsimp only
    rw [hnext]
    by_cases hsupplement : isSupplement m = true
    · have hplain : ((cnNumber (m.textOf .article item)).bind fun number =>
          (cnNumber (m.textOf .supplement item)).map (number,some ·)) ≠ some (current.1+1,
            none) := by
        intro h
        obtain ⟨n,-,h⟩ := Option.bind_eq_some_iff.mp h
        obtain ⟨part,-,h⟩ := Option.map_eq_some_iff.mp h
        cases h
      simp [hsupplement,hplain]
    · have hplain : ((cnNumber (m.textOf .article item)).bind fun number =>
          some (number,(none : Option ℕ))) = some (current.1+1,none) ↔
            cnNumber (m.textOf .article item) = some (current.1+1) := by
        simp [Option.bind_eq_some_iff]
      simp only [hsupplement,Bool.false_eq_true,or_false,if_false,hplain]
      cases leadingZero (m.textOf .article item) <;> simp

theorem sequenceBreak_walk (current : ℕ × ℕ) (numbers : List String) :
    sequenceBreak current numbers = none ↔ ∃ labels,
      numbers.map (fun item => readNumber item.toList) = labels.map some ∧
        (walk current labels).isSome = true := by
  induction numbers generalizing current with
  | nil =>
    constructor
    · exact fun _ => ⟨[],rfl,rfl⟩
    · exact fun _ => rfl
  | cons item numbers ih =>
    rw [sequenceBreak,continueWith_read]
    cases hread : readNumber item.toList with
    | none =>
      constructor
      · exact fun h => nomatch h
      · rintro ⟨labels,hlabels,-⟩
        cases labels with
        | nil => cases hlabels
        | cons label labels => simp [hread] at hlabels
    | some label =>
      dsimp only [Option.bind_some]
      cases hstep : advance current label with
      | none =>
        constructor
        · exact fun h => nomatch h
        · rintro ⟨labels,hlabels,hwalk⟩
          cases labels with
          | nil => cases hlabels
          | cons first labels =>
            simp only [List.map_cons,hread,List.cons.injEq,Option.some.injEq] at hlabels
            rw [walk,← hlabels.1,hstep] at hwalk
            cases hwalk
      | some next =>
        dsimp only
        rw [ih next]
        constructor
        · rintro ⟨labels,hlabels,hwalk⟩
          refine ⟨label::labels,?_,?_⟩
          · simp only [List.map_cons,hread,hlabels]
          · rw [walk,hstep]
            exact hwalk
        · rintro ⟨labels,hlabels,hwalk⟩
          cases labels with
          | nil => cases hlabels
          | cons first labels =>
            simp only [List.map_cons,hread,List.cons.injEq,Option.some.injEq] at hlabels
            rw [walk,← hlabels.1,hstep] at hwalk
            exact ⟨labels,hlabels.2,hwalk⟩

theorem reviewedBreak_none (last : ℕ) (current : ℕ × ℕ) (numbers : List String) :
    reviewedBreak last current numbers = none ↔
      (∀ item ∈ numbers, leadingZero (articleToken item.toList) = false) ∧
        numbers.map (fun item => readNumber item.toList) =
          (List.range' (current.1+1) numbers.length).map (fun number => some (number,none)) ∧
        current.1+numbers.length = last := by
  induction numbers generalizing current with
  | nil => simp [reviewedBreak]
  | cons item numbers ih =>
    rw [reviewedBreak,reviewedNext_read,List.length_cons,List.range'_succ,List.map_cons,
      List.map_cons,List.forall_mem_cons,List.cons.injEq]
    by_cases hnext : leadingZero (articleToken item.toList) = false ∧
        readNumber item.toList = some (current.1+1,none)
    · rw [if_pos hnext]
      dsimp only
      rw [ih]
      have harrange : current.1+1+numbers.length = current.1+(numbers.length+1) := by omega
      constructor
      · rintro ⟨hpadded,hread,hlast⟩
        exact ⟨⟨hnext.1,hpadded⟩,⟨hnext.2,hread⟩,harrange ▸ hlast⟩
      · rintro ⟨⟨-,hpadded⟩,⟨-,hread⟩,hlast⟩
        exact ⟨hpadded,hread,harrange.trans hlast⟩
    · rw [if_neg hnext]
      constructor
      · exact fun h => nomatch h
      · rintro ⟨⟨hpadded,-⟩,⟨hread,-⟩,-⟩
        exact absurd ⟨hpadded,hread⟩ hnext

/-- The numbers pass without a review exactly as the run from one with
supplements, and with a review exactly as its plain interval. -/
theorem articleSequenceBreak_none (review : Option ArticleNumberingReview)
    (numbers : List String) :
    articleSequenceBreak review numbers = none ↔
      match review with
      | none => ∃ counts,
          numbers.map (fun item => readNumber item.toList) = (runFrom 1 counts).map some
      | some r => (∀ item ∈ numbers, leadingZero (articleToken item.toList) = false) ∧
          numbers.map (fun item => readNumber item.toList) =
            (List.range' r.firstArticle (r.lastArticle-r.firstArticle+1)).map
              (fun number => some (number,none)) := by
  cases review with
  | none =>
    dsimp only [articleSequenceBreak]
    rw [sequenceBreak_walk]
    have hpositive : ∀ labels : List (ℕ × Option ℕ),
        numbers.map (fun item => readNumber item.toList) = labels.map some →
          ∀ label ∈ labels, 0 < label.1 := by
      intro labels hlabels label hlabel
      have hmem : some label ∈ numbers.map (fun item => readNumber item.toList) := by
        rw [hlabels]
        exact List.mem_map_of_mem hlabel
      obtain ⟨item,-,hread⟩ := List.mem_map.mp hmem
      exact readNumber_pos hread
    constructor
    · rintro ⟨labels,hlabels,hwalk⟩
      obtain ⟨counts,rfl⟩ := (walk_start (hpositive labels hlabels)).mp hwalk
      exact ⟨counts,hlabels⟩
    · rintro ⟨counts,hlabels⟩
      exact ⟨_,hlabels,(walk_start (hpositive _ hlabels)).mpr ⟨counts,rfl⟩⟩
  | some r =>
    have hordered := r.ordered
    dsimp only [articleSequenceBreak]
    by_cases hcount : numbers.length = r.lastArticle-r.firstArticle+1
    · have hfirst : r.firstArticle-1+1 = r.firstArticle := by omega
      have hlast : r.firstArticle-1+(r.lastArticle-r.firstArticle+1) = r.lastArticle := by omega
      rw [if_neg (not_not.mpr hcount),reviewedBreak_none,hcount,hfirst,hlast]
      constructor
      · exact fun h => ⟨h.1,h.2.1⟩
      · exact fun h => ⟨h.1,h.2,rfl⟩
    · rw [if_pos hcount]
      constructor
      · exact fun h => nomatch h
      · rintro ⟨-,hread⟩
        have hlength := congrArg List.length hread
        rw [List.length_map,List.length_map,List.length_range'] at hlength
        exact absurd hlength hcount

/-- A review of the articles two and three takes neither a supplement nor a
padded number, although both lists read as the interval in order. -/
theorem review_is_stricter :
    (["第二条","第二条之一","第三条"].map (fun item => readNumber item.toList) =
        (runFrom 2 [1,0]).map some ∧
      articleSequenceBreak (some ⟨2,3,by decide⟩) ["第二条","第二条之一","第三条"] ≠ none) ∧
    ["02","3"].map (fun item => readNumber item.toList) = (runFrom 2 [0,0]).map some ∧
      articleSequenceBreak (some ⟨2,3,by decide⟩) ["02","3"] ≠ none := by
  decide

end LawyerAgent.ArticleSequences
