import LawyerAgent.PdfBlocks
import Mathlib.Data.List.Nodup
import Mathlib.Data.List.ReduceOption

/-!
# Ids of parsed blocks

Every block of a parsed document is made at one place, and its id names this
place. Only the places of images that are left for review can come twice.
-/

set_option autoImplicit false

namespace LawyerAgent.PdfBlockIds
open Outcomes DocumentBlocks ImageRegions PdfIds PdfBlocks

variable {rounding : Rounding} {engine : Option Engine} {pageNumber : ℕ} {size : ℚ × ℚ}

def Made (place : Place) (block : DocumentBlock) : Prop :=
  block.blockId = place.id ∧ (∀ a ∈ block.anchors, a.page = place.page) ∧
    ∃ lines : List (Option ℕ), lines.Nodup ∧
      block.anchorIds = lines.map fun line => place.id++anchorPart line

theorem addLine_anchors {blockId : List Char} {state out : LineState} {line : List Glyph × ℕ}
    (h : addLine pageNumber blockId state line = .ok out) :
    ∃ added : List ℕ, added.Sublist [line.2] ∧
      out.anchors.map Anchor.anchorId = state.anchors.map Anchor.anchorId++
        added.map (fun number => blockId++anchorPart (some number)) ∧
      ∀ a ∈ out.anchors, a ∈ state.anchors ∨ a.page = pageNumber := by
  rw [addLine] at h
  split at h
  · cases h
    exact ⟨[],List.nil_sublist _,by simp,fun a ha => Or.inl ha⟩
  · next first rest _ =>
    dsimp only at h
    split at h
    · cases h
      exact ⟨[],List.nil_sublist _,by simp,fun a ha => Or.inl ha⟩
    · obtain ⟨found,hfound,hout⟩ := bind_ok.mp h
      obtain ⟨hid,hpage,-⟩ := anchor_ok hfound
      have hout := ok_inj.mp hout
      subst hout
      refine ⟨[line.2],List.Sublist.refl _,?_,?_⟩
      · rw [List.map_append,List.map_singleton,hid]
        rfl
      · intro a ha
        rcases List.mem_append.mp ha with ha | ha
        · exact Or.inl ha
        · rw [List.mem_singleton.mp ha]
          exact Or.inr hpage

theorem lines_anchors {blockId : List Char} {found : List (List Glyph)} {start : ℕ}
    {state out : LineState}
    (h : (found.zipIdx start).foldlM (addLine pageNumber blockId) state = .ok out) :
    ∃ added : List ℕ, added.Sublist (List.range' start found.length) ∧
      out.anchors.map Anchor.anchorId = state.anchors.map Anchor.anchorId++
        added.map (fun number => blockId++anchorPart (some number)) ∧
      ∀ a ∈ out.anchors, a ∈ state.anchors ∨ a.page = pageNumber := by
  induction found generalizing start state with
  | nil =>
    cases h
    exact ⟨[],List.nil_sublist _,by simp,fun a ha => Or.inl ha⟩
  | cons line found ih =>
    rw [List.zipIdx_cons,List.foldlM_cons] at h
    obtain ⟨next,hnext,hrest⟩ := bind_ok.mp h
    obtain ⟨first,hfirst,hids,hpages⟩ := addLine_anchors hnext
    obtain ⟨later,hlater,hlast,hlast'⟩ := ih hrest
    refine ⟨first++later,?_,?_,?_⟩
    · rw [List.length_cons,List.range'_succ]
      exact hfirst.append hlater
    · rw [hlast,hids,List.map_append,List.append_assoc]
    · intro a ha
      rcases hlast' a ha with ha | ha
      · exact hpages a ha
      · exact Or.inr ha

variable {block : DocumentBlock} {place : Place} {found : List DocumentBlock × Bool}
  {blocks : List DocumentBlock} {places : List Place}

theorem made_lines {glyphs : List Glyph} {found : List Char × List Anchor}
    (hid : block.blockId = place.id) (hanchors : block.anchors = found.2)
    (h : textAndAnchors rounding glyphs place.page place.id = .ok found) : Made place block := by
  obtain ⟨state,hstate,hfound⟩ := bind_ok.mp h
  obtain ⟨added,hadded,hids,hpages⟩ := lines_anchors hstate
  have hfound := ok_inj.mp hfound
  subst hfound
  refine ⟨hid,?_,added.map some,?_,?_⟩
  · intro a ha
    rw [hanchors] at ha
    exact (hpages a ha).resolve_left List.not_mem_nil
  · exact (hadded.nodup List.nodup_range').map (Option.some_injective _)
  · rw [DocumentBlock.anchorIds,hanchors,hids,List.map_map]
    rfl

theorem made_single {found : Anchor} (hid : block.blockId = place.id)
    (hanchors : block.anchors = [found]) (hpage : found.page = place.page)
    (hanchor : found.anchorId = place.id++anchorPart none) :
    Made place block := by
  refine ⟨hid,?_,[none],List.nodup_singleton _,?_⟩
  · intro a ha
    rw [hanchors,List.mem_singleton] at ha
    rw [ha]
    exact hpage
  · rw [DocumentBlock.anchorIds,hanchors,List.map_singleton,hanchor]
    rfl

theorem made_reduce {β : Type} {xs : List β} {found : List (Option DocumentBlock)}
    (place : β → Place)
    (h : List.Forall₂ (fun x y => ∀ block ∈ y, Made (place x) block) xs found) :
    ∃ kept : List β, kept.Sublist xs ∧
      List.Forall₂ Made (kept.map place) found.reduceOption := by
  induction h with
  | nil => exact ⟨[],.slnil,.nil⟩
  | @cons x y xs ys hfirst _ ih =>
    obtain ⟨kept,hkept,hmade⟩ := ih
    cases y with
    | none => exact ⟨kept,hkept.cons x,hmade⟩
    | some block => exact ⟨x::kept,hkept.cons_cons x,.cons (hfirst block rfl) hmade⟩

theorem cellBlock_made {placed : List (Option CellKey × Glyph)} {key : CellKey}
    (h : cellBlock rounding placed pageNumber key = .ok block) :
    Made (.cell pageNumber (key.1+1) key.2.1 key.2.2) block := by
  obtain ⟨found,hfound,hblock⟩ := bind_ok.mp h
  obtain ⟨hid,-,hanchors,-⟩ := documentBlock_ok hblock
  exact made_lines hid hanchors hfound

theorem lineBlock_made {line : List Glyph × ℕ} {found : Option DocumentBlock}
    (h : lineBlock rounding pageNumber line = .ok found) :
    ∀ block ∈ found, Made (.line pageNumber line.2) block := by
  obtain ⟨text,htext,hfound⟩ := bind_ok.mp h
  intro block hblock
  split at hfound
  · cases hfound
    cases hblock
  · cases hdocument :
      documentBlock (lineId pageNumber line.2) .text text.1 text.2 .verified none with
    | error e =>
      rw [hdocument] at hfound
      cases hfound
    | ok made =>
      rw [hdocument] at hfound
      cases hfound
      cases hblock
      obtain ⟨hid,-,hanchors,-⟩ := documentBlock_ok hdocument
      have hplace : (Place.line pageNumber line.2).id = lineId pageNumber line.2 := rfl
      exact made_lines hid hanchors htext

theorem nodup_flatMap_zipIdx {α β : Type} {f : α × ℕ → List β} (key : β → ℕ)
    (hkey : ∀ x, ∀ b ∈ f x, key b = x.2) (hnodup : ∀ x, (f x).Nodup) (items : List α) (start : ℕ) :
    ((items.zipIdx start).flatMap f).Nodup := by
  have hnumbers : ((items.zipIdx start).map Prod.snd).Nodup := by
    rw [List.zipIdx_map_snd]
    exact List.nodup_range'
  rw [List.Nodup,List.pairwise_map] at hnumbers
  rw [List.nodup_flatMap]
  refine ⟨fun x _ => hnodup x,hnumbers.imp ?_⟩
  intro x y hne b hx hy
  exact hne ((hkey x b hx).symm.trans (hkey y b hy))

theorem cells_nodup (found : List (List (List Box))) : ((cells found).map Prod.fst).Nodup := by
  rw [cells,List.map_flatMap]
  refine nodup_flatMap_zipIdx Prod.fst ?_ ?_ found 0
  · intro table key hkey
    simp only [List.map_flatMap,List.map_map,List.mem_flatMap,List.mem_map] at hkey
    obtain ⟨row,-,cell,-,rfl⟩ := hkey
    rfl
  · intro table
    rw [List.map_flatMap]
    refine nodup_flatMap_zipIdx (fun k => k.2.1) ?_ ?_ table.1 0
    · intro row key hkey
      rw [List.map_map,List.mem_map] at hkey
      obtain ⟨cell,-,rfl⟩ := hkey
      rfl
    · intro row
      rw [List.map_map]
      have hcolumns : ((row.1.zipIdx).map Prod.snd).Nodup := by
        rw [List.zipIdx_map_snd]
        exact List.nodup_range'
      have hsame : row.1.zipIdx.map (Prod.fst ∘ fun cell => ((table.2,row.2,cell.2),cell.1)) =
          (row.1.zipIdx.map Prod.snd).map fun column => (table.2,row.2,column) := by
        rw [List.map_map]
        rfl
      rw [hsame]
      exact hcolumns.map fun a b hab => (Prod.mk.inj (Prod.mk.inj hab).2).2

theorem native_made {page : Page} {native : List DocumentBlock}
    (h : nativeLineBlocks rounding page pageNumber = .ok native) :
    ∃ places : List Place, List.Forall₂ Made places native ∧ places.Nodup ∧
      ∀ place ∈ places, place.page = pageNumber ∧ place.isNative = true := by
  obtain ⟨found,-,hplaced⟩ := bind_ok.mp h
  obtain ⟨placed,-,htables⟩ := bind_ok.mp hplaced
  obtain ⟨tableBlocks,hcells,hbody⟩ := bind_ok.mp htables
  obtain ⟨body,hlines,hnative⟩ := bind_ok.mp hbody
  obtain ⟨blocks,hblocks,hreduced⟩ := bind_ok.mp hlines
  rw [← ok_inj.mp hnative,← ok_inj.mp hreduced]
  have hfirst : List.Forall₂ Made (((cells found).map Prod.fst).map fun key =>
      Place.cell pageNumber (key.1+1) key.2.1 key.2.2) tableBlocks := by
    rw [List.map_map,List.forall₂_map_left_iff]
    exact (mapM_ok.mp hcells).imp fun cell block hblock => cellBlock_made hblock
  obtain ⟨kept,hkept,hsecond⟩ := made_reduce (fun line : List Glyph × ℕ =>
    Place.line pageNumber line.2) ((mapM_ok.mp hblocks).imp fun line block hblock =>
      lineBlock_made hblock)
  refine ⟨_,List.rel_append hfirst hsecond,?_,?_⟩
  · rw [List.nodup_append]
    refine ⟨(cells_nodup found).map ?_,?_,?_⟩
    · intro a b hab
      injection hab with _ htable hrow hcolumn
      exact Prod.ext (Nat.succ.inj htable) (Prod.ext hrow hcolumn)
    · have hnumbers : (kept.map Prod.snd).Nodup := by
        refine (hkept.map Prod.snd).nodup ?_
        rw [List.zipIdx_map_snd]
        exact List.nodup_range'
      have hsame : kept.map (fun line => Place.line pageNumber line.2) =
          (kept.map Prod.snd).map (Place.line pageNumber) := by
        rw [List.map_map]
        rfl
      rw [hsame]
      exact hnumbers.map fun a b hab => by injection hab
    · intro a ha b hb hab
      obtain ⟨key,-,rfl⟩ := List.mem_map.mp ha
      obtain ⟨line,-,rfl⟩ := List.mem_map.mp hb
      cases hab
  · intro place hplace
    rcases List.mem_append.mp hplace with hplace | hplace
    · obtain ⟨key,-,rfl⟩ := List.mem_map.mp hplace
      exact ⟨rfl,rfl⟩
    · obtain ⟨line,-,rfl⟩ := List.mem_map.mp hplace
      exact ⟨rfl,rfl⟩

def usable (rounding : Rounding) (size : ℚ × ℚ) (region : Option Box) (row : OcrRow) : Bool :=
  row.text ≠ [] && (pageQuad rounding size region row).isSome

def readable (rounding : Rounding) (engine : Option Engine) (pageNumber : ℕ) (size : ℚ × ℚ)
    (region : Option Box) : Bool :=
  match engine.bind fun run => run pageNumber region with
  | none => false
  | some rows => rows.any (usable rounding size region)

theorem ocrBlock_made {region : Option (Box × ℕ)} {row : OcrRow × ℕ} {found : Option DocumentBlock}
    (h : ocrBlock rounding pageNumber size region row = .ok found) :
    (∀ block ∈ found, Made (.ocr pageNumber (region.map Prod.snd) row.2) block) ∧
      found.isSome = usable rounding size (region.map Prod.fst) row.1 := by
  rw [ocrBlock] at h
  split at h
  · next hempty =>
    cases h
    refine ⟨nofun,?_⟩
    rw [usable,decide_eq_false (not_not_intro hempty)]
    rfl
  · next htext =>
    split at h
    · next hquad =>
      cases h
      refine ⟨nofun,?_⟩
      rw [usable,hquad]
      exact (Bool.and_false _).symm
    · next quad hquad =>
      obtain ⟨anchor,hanchor,hblock⟩ := bind_ok.mp h
      cases hdocument :
        documentBlock (ocrId pageNumber (region.map Prod.snd) row.2) .image row.1.text
          [anchor] (if row.1.confident then .verified else .needsReview) none with
      | error e =>
        rw [hdocument] at hblock
        cases hblock
      | ok made =>
        rw [hdocument] at hblock
        cases hblock
        obtain ⟨hid,-,hanchors,-⟩ := documentBlock_ok hdocument
        obtain ⟨hanchorId,hpage,-⟩ := anchor_ok hanchor
        constructor
        · intro block hfound
          cases hfound
          exact made_single hid hanchors hpage hanchorId
        · rw [usable,hquad,decide_eq_true htext]
          rfl

theorem reduceOption_nil {β γ : Type} {p : β → Bool} {xs : List β} {found : List (Option γ)}
    (h : List.Forall₂ (fun x y => y.isSome = p x) xs found) :
    found.reduceOption = [] ↔ xs.any p = false := by
  induction h with
  | nil => simp
  | @cons x y xs ys hfirst _ ih =>
    cases y with
    | none =>
      rw [List.reduceOption_cons_of_none,ih,List.any_cons,← hfirst]
      rfl
    | some z =>
      rw [List.reduceOption_cons_of_some,List.any_cons,← hfirst]
      simp

def imagePlace (pageNumber : ℕ) (region : Option Box) : Place :=
  .image pageNumber (region.map fun box =>
    ((roundHalfEven box.x0).toNat,(roundHalfEven box.top).toNat))

def Cornered (region : Option Box) : Prop := ∀ box ∈ region, 0 ≤ box.x0 ∧ 0 ≤ box.top

theorem roundHalfEven_nonneg {q : ℚ} (h : 0 ≤ q) : 0 ≤ roundHalfEven q := by
  have hfloor : 0 ≤ q.floor := Rat.le_floor_iff.mpr h
  rw [roundHalfEven]
  split
  · exact hfloor
  · split
    · omega
    · split
      · exact hfloor
      · omega

theorem image_made {region : Option Box} (hregion : Cornered region)
    (h : unrecognizedImageBlock pageNumber size region = .ok block) :
    Made (imagePlace pageNumber region) block := by
  obtain ⟨found,hfound,hblock⟩ := bind_ok.mp h
  obtain ⟨hid,-,hanchors,-⟩ := documentBlock_ok hblock
  obtain ⟨hanchor,hpage,-⟩ := anchor_ok hfound
  have hplace : (imagePlace pageNumber region).id = imageId pageNumber (region.map corner) := by
    cases region with
    | none => rfl
    | some box =>
      obtain ⟨hx0,htop⟩ := hregion box rfl
      have hx : ((roundHalfEven box.x0).toNat : ℤ) = roundHalfEven box.x0 :=
        Int.toNat_of_nonneg (roundHalfEven_nonneg hx0)
      have ht : ((roundHalfEven box.top).toNat : ℤ) = roundHalfEven box.top :=
        Int.toNat_of_nonneg (roundHalfEven_nonneg htop)
      change imageId pageNumber (some (((roundHalfEven box.x0).toNat : ℤ),
        ((roundHalfEven box.top).toNat : ℤ))) = _
      rw [hx,ht]
      rfl
  rw [← hplace] at hid hanchor
  exact made_single hid hanchors hpage hanchor

theorem ocrBlocks_made {region : Option (Box × ℕ)}
    (h : ocrBlocks rounding engine pageNumber size region = .ok found) :
    (readable rounding engine pageNumber size (region.map Prod.fst) = true ∧
      ∃ numbers : List ℕ, numbers.Nodup ∧ List.Forall₂ Made
        (numbers.map (Place.ocr pageNumber (region.map Prod.snd))) found.1) ∨
    (readable rounding engine pageNumber size (region.map Prod.fst) = false ∧
      ∃ block, unrecognizedImageBlock pageNumber size (region.map Prod.fst) = .ok block ∧
        found.1 = [block]) := by
  have hsingle : ∀ {out : List DocumentBlock × Bool} {complete : Bool},
      (fun block => ([block],complete)) <$>
        unrecognizedImageBlock pageNumber size (region.map Prod.fst) = .ok out →
      ∃ block, unrecognizedImageBlock pageNumber size (region.map Prod.fst) = .ok block ∧
        out.1 = [block] := by
    intro out complete hout
    cases hblock : unrecognizedImageBlock pageNumber size (region.map Prod.fst) with
    | error e =>
      rw [hblock] at hout
      cases hout
    | ok block =>
      rw [hblock] at hout
      cases hout
      exact ⟨block,rfl,rfl⟩
  rw [ocrBlocks.eq_def] at h
  rw [readable]
  cases hrows : engine.bind fun run => run pageNumber (region.map Prod.fst) with
  | none =>
    rw [hrows] at h
    exact Or.inr ⟨rfl,hsingle h⟩
  | some rows =>
    rw [hrows] at h
    cases rows with
    | nil => exact Or.inr ⟨rfl,hsingle h⟩
    | cons row rows =>
      dsimp only at h ⊢
      obtain ⟨blocks,hblocks,hfound⟩ := bind_ok.mp h
      have hall := mapM_ok.mp hblocks
      have hnil := reduceOption_nil (hall.imp fun _ _ hblock => (ocrBlock_made hblock).2)
      have hany : (row::rows).any (usable rounding size (region.map Prod.fst)) =
          ((row::rows).zipIdx 1).any fun r => usable rounding size (region.map Prod.fst) r.1 := by
        conv_lhs => rw [← List.zipIdx_map_fst 1 (row::rows)]
        rw [List.any_map]
        rfl
      rw [hany]
      by_cases hempty : blocks.reduceOption = []
      · rw [if_pos hempty] at hfound
        obtain ⟨block,hblock,hout⟩ := bind_ok.mp hfound
        rw [← ok_inj.mp hout]
        exact Or.inr ⟨hnil.mp hempty,block,hblock,rfl⟩
      · rw [if_neg hempty] at hfound
        rw [← ok_inj.mp hfound]
        refine Or.inl ⟨Bool.of_not_eq_false fun hno => hempty (hnil.mpr hno),?_⟩
        obtain ⟨kept,hkept,hmade⟩ := made_reduce (fun row : OcrRow × ℕ =>
          Place.ocr pageNumber (region.map Prod.snd) row.2)
          (hall.imp fun _ _ hblock => (ocrBlock_made hblock).1)
        refine ⟨kept.map Prod.snd,(hkept.map Prod.snd).nodup ?_,?_⟩
        · rw [List.zipIdx_map_snd]
          exact List.nodup_range'
        · rw [List.map_map]
          exact hmade

variable {native : List DocumentBlock}

theorem mergeBlock_made {block merged : DocumentBlock} (h : Made place block)
    (hmerged : mergeBlock rounding native block = some merged) : Made place merged := by
  rw [mergeBlock] at hmerged
  split at hmerged
  · cases hmerged
  · split at hmerged
    · cases hmerged
      exact h
    · cases hmerged
      exact h

theorem merged_made (rounding : Rounding) (native : List DocumentBlock)
    (h : List.Forall₂ Made places blocks) :
    ∃ kept : List Place, kept.Sublist places ∧
      List.Forall₂ Made kept (blocks.filterMap (mergeBlock rounding native)) := by
  induction h with
  | nil => exact ⟨[],.slnil,.nil⟩
  | @cons place block places blocks hfirst _ ih =>
    obtain ⟨kept,hkept,hmade⟩ := ih
    rw [List.filterMap_cons]
    cases hmerged : mergeBlock rounding native block with
    | none => exact ⟨kept,hkept.cons place,hmade⟩
    | some merged =>
      exact ⟨place::kept,hkept.cons_cons place,.cons (mergeBlock_made hfirst hmerged) hmade⟩

/-- The region stays as an image to be reviewed: no text is found in it, and no
native block stands for its placeholder. -/
def leftForReview (rounding : Rounding) (engine : Option Engine) (pageNumber : ℕ) (size : ℚ × ℚ)
    (native : List DocumentBlock) (region : Box) : Bool :=
  !readable rounding engine pageNumber size (some region) &&
    match unrecognizedImageBlock pageNumber size (some region) with
    | .error _ => false
    | .ok block => !exactDuplicate rounding (nativeInRegion rounding native region) block

theorem region_made {region : Box × ℕ} (hregion : Cornered (some region.1))
    (h : regionBlocks rounding engine pageNumber size native region = .ok found) :
    ∃ places : List Place, List.Forall₂ Made places found.1 ∧
      places.filter Place.isImage =
        ([region.1].filter (leftForReview rounding engine pageNumber size native)).map
          (fun box => imagePlace pageNumber (some box)) ∧
      (places.filter (!Place.isImage ·)).Nodup ∧
      ∀ place ∈ places, place.page = pageNumber ∧
        (place.isImage = false → ∃ index, place = .ocr pageNumber (some region.2) index) := by
  obtain ⟨ocr,hocr,hmerged⟩ := bind_ok.mp h
  rw [← ok_inj.mp hmerged]
  rcases ocrBlocks_made hocr with ⟨hread,numbers,hnumbers,hmade⟩ | ⟨hread,block,hblock,hone⟩
  · obtain ⟨kept,hkept,hall⟩ := merged_made rounding
      (nativeInRegion rounding native region.1) hmade
    have hocrs : ∀ place ∈ kept, ∃ index, place = .ocr pageNumber (some region.2) index := by
      intro place hplace
      obtain ⟨index,-,rfl⟩ := List.mem_map.mp (hkept.subset hplace)
      exact ⟨index,rfl⟩
    refine ⟨kept,hall,?_,?_,?_⟩
    · have hleft : leftForReview rounding engine pageNumber size native region.1 = false := by
        have hread' : readable rounding engine pageNumber size (some region.1) = true := hread
        rw [leftForReview,hread']
        rfl
      rw [List.filter_cons_of_neg (by rw [hleft]; exact Bool.false_ne_true),
        List.filter_eq_nil_iff.mpr]
      · rfl
      · intro place hplace
        obtain ⟨index,rfl⟩ := hocrs place hplace
        exact Bool.false_ne_true
    · refine (List.filter_sublist.trans hkept).nodup (hnumbers.map ?_)
      intro a b hab
      injection hab
    · intro place hplace
      obtain ⟨index,rfl⟩ := hocrs place hplace
      exact ⟨rfl,fun _ => ⟨index,rfl⟩⟩
  · have hread' : readable rounding engine pageNumber size (some region.1) = false := hread
    have hblock' : unrecognizedImageBlock pageNumber size (some region.1) = .ok block := hblock
    rw [mergeMixedBlocks,hone]
    cases hkept : mergeBlock rounding (nativeInRegion rounding native region.1) block with
    | none =>
      have hleft : leftForReview rounding engine pageNumber size native region.1 = false := by
        rw [mergeBlock] at hkept
        split at hkept
        · next hduplicate =>
          rw [leftForReview,hread',hblock']
          dsimp only
          rw [hduplicate]
          rfl
        · split at hkept
          · cases hkept
          · cases hkept
      refine ⟨[],?_,?_,List.nodup_nil,fun _ h => absurd h List.not_mem_nil⟩
      · rw [List.filterMap_cons_none hkept]
        exact .nil
      · rw [List.filter_cons_of_neg (by rw [hleft]; exact Bool.false_ne_true)]
        rfl
    | some merged =>
      have hleft : leftForReview rounding engine pageNumber size native region.1 = true := by
        rw [mergeBlock] at hkept
        split at hkept
        · cases hkept
        · next hduplicate =>
          rw [leftForReview,hread',hblock']
          dsimp only
          rw [Bool.of_not_eq_true hduplicate]
          rfl
      have hmade : Made (imagePlace pageNumber (some region.1)) merged :=
        mergeBlock_made (image_made hregion hblock') hkept
      refine ⟨[imagePlace pageNumber (some region.1)],?_,?_,List.nodup_nil,?_⟩
      · rw [List.filterMap_cons_some hkept]
        exact .cons hmade .nil
      · rw [List.filter_cons_of_pos hleft]
        rfl
      · intro place hplace
        rw [List.mem_singleton.mp hplace]
        exact ⟨rfl,fun h => (Bool.false_ne_true h.symm).elim⟩

theorem regions_made {regions : List Box} {start : ℕ} {found : List (List DocumentBlock × Bool)}
    (hregions : ∀ region ∈ regions, Cornered (some region))
    (h : List.Forall₂ (fun region out =>
      regionBlocks rounding engine pageNumber size native region = .ok out)
      (regions.zipIdx start) found) :
    ∃ places : List Place, List.Forall₂ Made places (found.map Prod.fst).flatten ∧
      places.filter Place.isImage =
        (regions.filter (leftForReview rounding engine pageNumber size native)).map
          (fun box => imagePlace pageNumber (some box)) ∧
      (places.filter (!Place.isImage ·)).Nodup ∧
      ∀ place ∈ places, place.page = pageNumber ∧ (place.isImage = false →
        ∃ region index, start ≤ region ∧ place = .ocr pageNumber (some region) index) := by
  induction regions generalizing start found with
  | nil =>
    cases h
    exact ⟨[],.nil,rfl,List.nodup_nil,nofun⟩
  | cons region regions ih =>
    rw [List.zipIdx_cons] at h
    cases h with
    | cons hfirst hrest =>
      obtain ⟨first,hmade,himages,hnodup,hplaces⟩ :=
        region_made (hregions region List.mem_cons_self) hfirst
      obtain ⟨later,hmade',himages',hnodup',hplaces'⟩ :=
        ih (fun r hr => hregions r (List.mem_cons_of_mem region hr)) hrest
      refine ⟨first++later,List.rel_append hmade hmade',?_,?_,?_⟩
      · rw [List.filter_append,himages,himages',← List.map_append,← List.filter_append]
        rfl
      · rw [List.filter_append,List.nodup_append]
        refine ⟨hnodup,hnodup',?_⟩
        intro a ha b hb hab
        obtain ⟨ha,hfree⟩ := List.mem_filter.mp ha
        obtain ⟨hb,hfree'⟩ := List.mem_filter.mp hb
        obtain ⟨index,hindex⟩ := (hplaces a ha).2 (by simpa using hfree)
        obtain ⟨other,index',hother,hindex'⟩ := (hplaces' b hb).2 (by simpa using hfree')
        rw [hindex,hindex'] at hab
        injection hab with _ hregion
        have hsame : start = other := Option.some.inj hregion
        omega
      · intro place hplace
        rcases List.mem_append.mp hplace with hplace | hplace
        · obtain ⟨hpage,hocr⟩ := hplaces place hplace
          refine ⟨hpage,fun hfree => ?_⟩
          obtain ⟨index,hindex⟩ := hocr hfree
          exact ⟨start,index,le_rfl,hindex⟩
        · obtain ⟨hpage,hocr⟩ := hplaces' place hplace
          refine ⟨hpage,fun hfree => ?_⟩
          obtain ⟨other,index,hother,hindex⟩ := hocr hfree
          exact ⟨other,index,by omega,hindex⟩

/-- The images left for review on a page with text have rounded corners of their own. -/
def CornersApart (rounding : Rounding) (engine : Option Engine) (page : Page × ℕ) : Prop :=
  ∀ size native regions, validatePageGeometry rounding page.1 = .ok size →
    nativeLineBlocks rounding page.1 page.2 = .ok native → native ≠ [] →
    imageRegions rounding page.1.images size.1 size.2 = .ok regions →
    ((regions.filter (leftForReview rounding engine page.2 size native)).map corner).Nodup

theorem nodup_by_images (h : (places.filter (!Place.isImage ·)).Nodup) :
    places.Nodup ↔ (places.filter Place.isImage).Nodup := by
  have hperm : (places.filter Place.isImage++places.filter (!Place.isImage ·)).Perm places :=
    List.filter_append_perm _ _
  rw [← hperm.nodup_iff,List.nodup_append]
  constructor
  · intro hall
    exact hall.1
  · intro himages
    refine ⟨himages,h,?_⟩
    intro a ha b hb hab
    rw [hab,List.mem_filter] at ha
    have hfree := (List.mem_filter.mp hb).2
    rw [ha.2] at hfree
    cases hfree

theorem corners_nodup {regions : List Box} (h : ∀ region ∈ regions, Cornered (some region)) :
    (regions.map fun box => imagePlace pageNumber (some box)).Nodup ↔
      (regions.map corner).Nodup := by
  have hsame : ∀ a ∈ regions, ∀ b ∈ regions,
      (imagePlace pageNumber (some a) = imagePlace pageNumber (some b) ↔ corner a = corner b) := by
    intro a ha b hb
    obtain ⟨hx,ht⟩ := h a ha a rfl
    obtain ⟨hx',ht'⟩ := h b hb b rfl
    have hcorners : ∀ p q : ℚ, 0 ≤ p → 0 ≤ q →
        ((roundHalfEven p).toNat = (roundHalfEven q).toNat ↔ roundHalfEven p =
          roundHalfEven q) := by
      intro p q hp hq
      have hp := roundHalfEven_nonneg hp
      have hq := roundHalfEven_nonneg hq
      omega
    simp only [imagePlace,Option.map_some,Place.image.injEq,Option.some.injEq,Prod.mk.injEq,
      true_and,
      corner]
    rw [hcorners _ _ hx hx',hcorners _ _ ht ht']
  rw [List.Nodup,List.Nodup,List.pairwise_map,List.pairwise_map]
  constructor
  · intro hall
    exact hall.imp_of_mem fun ha hb hne hab => hne ((hsame _ ha _ hb).mpr hab)
  · intro hall
    exact hall.imp_of_mem fun ha hb hne hab => hne ((hsame _ ha _ hb).mp hab)

theorem page_made {page : Page × ℕ} {parsed : ParsedPdf}
    (h : pageBlocks rounding engine page = .ok parsed) :
    ∃ places : List Place, List.Forall₂ Made places parsed.blocks ∧
      (∀ place ∈ places, place.page = page.2) ∧
      (places.Nodup ↔ CornersApart rounding engine page) := by
  obtain ⟨size,hsize,hnative⟩ := bind_ok.mp h
  obtain ⟨native,hnative,hfound⟩ := bind_ok.mp hnative
  by_cases hempty : native = []
  · rw [if_pos hempty] at hfound
    obtain ⟨ocr,hocr,hout⟩ := bind_ok.mp hfound
    rw [← ok_inj.mp hout]
    have hapart : CornersApart rounding engine page := by
      intro _ other _ _ hother hne
      rw [hnative] at hother
      exact absurd ((ok_inj.mp hother).symm.trans hempty) hne
    rcases ocrBlocks_made hocr with ⟨-,numbers,hnumbers,hmade⟩ | ⟨-,block,hblock,hone⟩
    · refine ⟨_,hmade,?_,iff_of_true (hnumbers.map fun a b hab => by injection hab) hapart⟩
      intro place hplace
      obtain ⟨index,-,rfl⟩ := List.mem_map.mp hplace
      rfl
    · refine ⟨[imagePlace page.2 none],?_,?_,iff_of_true (List.nodup_singleton _) hapart⟩
      · rw [hone]
        exact .cons (image_made nofun hblock) .nil
      · intro place hplace
        rw [List.mem_singleton.mp hplace]
        rfl
  · rw [if_neg hempty] at hfound
    obtain ⟨regions,hregions,hmerged⟩ := bind_ok.mp hfound
    obtain ⟨merged,hmerged,hout⟩ := bind_ok.mp hmerged
    rw [← ok_inj.mp hout]
    have hcornered : ∀ region ∈ regions, Cornered (some region) := by
      intro region hregion box hbox
      cases hbox
      exact imageRegions_corner hregions region hregion
    obtain ⟨first,hmade,hnodup,hplaces⟩ := native_made hnative
    obtain ⟨later,hmade',himages,hnodup',hplaces'⟩ := regions_made hcornered (mapM_ok.mp hmerged)
    have hnone : first.filter Place.isImage = [] := by
      rw [List.filter_eq_nil_iff]
      intro place hplace himage
      have hnative := (hplaces place hplace).2
      cases place <;> simp_all [Place.isNative,Place.isImage]
    have hothers : ((first++later).filter (!Place.isImage ·)).Nodup := by
      rw [List.filter_append,List.nodup_append]
      refine ⟨hnodup.filter _,hnodup',?_⟩
      intro a ha b hb hab
      obtain ⟨hb,hfree⟩ := List.mem_filter.mp hb
      obtain ⟨region,index,-,hocr⟩ := (hplaces' b hb).2 (by simpa using hfree)
      have hnative := (hplaces a (List.mem_filter.mp ha).1).2
      rw [hab,hocr] at hnative
      cases hnative
    refine ⟨first++later,List.rel_append hmade hmade',?_,?_⟩
    · intro place hplace
      rcases List.mem_append.mp hplace with hplace | hplace
      · exact (hplaces place hplace).1
      · exact (hplaces' place hplace).1
    · rw [nodup_by_images hothers,List.filter_append,hnone,List.nil_append,himages,
        corners_nodup fun region hregion => hcornered region (List.mem_filter.mp hregion).1]
      constructor
      · intro hapart size' native' regions' hsize' hnative' _ hregions'
        have hsame := ok_inj.mp (hsize.symm.trans hsize')
        have hsame' := ok_inj.mp (hnative.symm.trans hnative')
        subst hsame hsame'
        have hsame := ok_inj.mp (hregions.symm.trans hregions')
        subst hsame
        exact hapart
      · intro hapart
        exact hapart size native regions hsize hnative hempty hregions

theorem pages_made {pages : List Page} {start : ℕ} {parsed out : ParsedPdf}
    (h : (pages.zipIdx start).foldlM (addPage rounding engine) parsed = .ok out) :
    ∃ (places : List Place) (added : List DocumentBlock), out.blocks = parsed.blocks++added ∧
      List.Forall₂ Made places added ∧ (∀ place ∈ places, start ≤ place.page) ∧
      (places.Nodup ↔ ∀ page ∈ pages.zipIdx start, CornersApart rounding engine page) := by
  induction pages generalizing start parsed with
  | nil =>
    cases h
    exact ⟨[],[],(List.append_nil _).symm,.nil,nofun,iff_of_true List.nodup_nil nofun⟩
  | cons page pages ih =>
    rw [List.zipIdx_cons,List.foldlM_cons] at h
    obtain ⟨next,hnext,hrest⟩ := bind_ok.mp h
    obtain ⟨found,hfound,hchecked⟩ := bind_ok.mp hnext
    obtain ⟨-,-,hnext⟩ := bind_ok.mp hchecked
    have hnext := ok_inj.mp hnext
    subst hnext
    obtain ⟨first,hmade,hpage,hnodup⟩ := page_made hfound
    obtain ⟨later,added,hblocks,hmade',hpages,hnodup'⟩ := ih hrest
    refine ⟨first++later,found.blocks++added,?_,List.rel_append hmade hmade',?_,?_⟩
    · rw [hblocks,List.append_assoc]
    · intro place hplace
      rcases List.mem_append.mp hplace with hplace | hplace
      · exact (hpage place hplace).ge
      · have hlater := hpages place hplace
        omega
    · have hapart : ∀ a ∈ first, ∀ b ∈ later, a ≠ b := by
        intro a ha b hb hab
        have hfirst := hpage a ha
        have hlater := hpages b hb
        rw [hab] at hfirst
        omega
      rw [List.nodup_append,List.zipIdx_cons,List.forall_mem_cons,← hnodup,← hnodup']
      exact ⟨fun hall => ⟨hall.1,hall.2.1⟩,fun hall => ⟨hall.1,hall.2,hapart⟩⟩

/-- Every block id and every anchor id comes once, and names one block. -/
structure Resolvable (blocks : List DocumentBlock) : Prop where
  blockIds : (blocks.map DocumentBlock.blockId).Nodup
  anchorIds : (blocks.flatMap DocumentBlock.anchorIds).Nodup
  oneBlock : ∀ a ∈ blocks, ∀ b ∈ blocks, a.blockId = b.blockId → a = b
  oneAnchor : ∀ a ∈ blocks, ∀ b ∈ blocks, ∀ id ∈ a.anchorIds, id ∈ b.anchorIds → a = b

theorem made_ids (h : List.Forall₂ Made places blocks) :
    blocks.map DocumentBlock.blockId = places.map Place.id := by
  induction h with
  | nil => rfl
  | cons hfirst _ ih => rw [List.map_cons,List.map_cons,hfirst.1,ih]

theorem made_mem (h : List.Forall₂ Made places blocks) :
    ∀ block ∈ blocks, ∃ place ∈ places, Made place block := by
  induction h with
  | nil => nofun
  | @cons place block places blocks hfirst _ ih =>
    intro other hother
    rcases List.mem_cons.mp hother with rfl | hother
    · exact ⟨place,List.mem_cons_self,hfirst⟩
    · obtain ⟨found,hfound,hmade⟩ := ih other hother
      exact ⟨found,List.mem_cons_of_mem place hfound,hmade⟩

theorem made_anchor {place other : Place} {a b : DocumentBlock} (ha : Made place a)
    (hb : Made other b) {id : List Char} (hid : id ∈ a.anchorIds) (hid' : id ∈ b.anchorIds) :
    place = other := by
  obtain ⟨-,-,lines,-,hlines⟩ := ha
  obtain ⟨-,-,lines',-,hlines'⟩ := hb
  rw [hlines] at hid
  rw [hlines'] at hid'
  obtain ⟨line,-,rfl⟩ := List.mem_map.mp hid
  obtain ⟨line',-,hsame⟩ := List.mem_map.mp hid'
  exact (anchor_inj hsame).1.symm

theorem made_anchors_nodup (h : Made place block) :
    block.anchorIds.Nodup := by
  obtain ⟨-,-,lines,hlines,hids⟩ := h
  rw [hids]
  exact hlines.map fun a b hab => (anchor_inj hab).2

theorem resolvable_made (h : List.Forall₂ Made places blocks) (hnodup : places.Nodup) :
    Resolvable blocks := by
  have hids : (blocks.map DocumentBlock.blockId).Nodup := by
    rw [made_ids h]
    exact hnodup.map fun a b hab => id_inj hab
  have hblock : ∀ a ∈ blocks, ∀ b ∈ blocks, a.blockId = b.blockId → a = b := by
    intro a ha b hb hab
    exact List.inj_on_of_nodup_map hids ha hb hab
  have hanchor : ∀ a ∈ blocks, ∀ b ∈ blocks, ∀ id ∈ a.anchorIds, id ∈ b.anchorIds → a = b := by
    intro a ha b hb id hid hid'
    obtain ⟨place,-,hplace⟩ := made_mem h a ha
    obtain ⟨other,-,hother⟩ := made_mem h b hb
    have hsame := made_anchor hplace hother hid hid'
    subst hsame
    exact hblock a ha b hb (hplace.1.trans hother.1.symm)
  refine ⟨hids,?_,hblock,hanchor⟩
  rw [List.nodup_flatMap]
  constructor
  · intro block hmem
    obtain ⟨place,-,hmade⟩ := made_mem h block hmem
    exact made_anchors_nodup hmade
  · have hne : blocks.Pairwise fun a b => a.blockId ≠ b.blockId := List.pairwise_map.mp hids
    refine hne.imp_of_mem ?_
    intro a b ha hb hab id hid hid'
    exact hab (congrArg DocumentBlock.blockId (hanchor a ha b hb id hid hid'))

theorem parsed_places {rounding : Rounding} {engine : Option Engine}
    {serialized : DocumentBlock → ℕ} {document : Option (List Page)} {parsed : ParsedPdf}
    (h : parsePdf rounding engine serialized document = .ok parsed) :
    ∃ (pages : List Page) (places : List Place), document = some pages ∧
      List.Forall₂ Made places parsed.blocks ∧
      (places.Nodup ↔ ∀ page ∈ pages.zipIdx 1, CornersApart rounding engine page) := by
  rw [parsePdf.eq_def] at h
  cases document with
  | none => cases h
  | some pages =>
    obtain ⟨-,-,hparsed⟩ := bind_ok.mp h
    obtain ⟨out,hout,hchecked⟩ := bind_ok.mp hparsed
    obtain ⟨-,-,hsame⟩ := bind_ok.mp hchecked
    rw [← ok_inj.mp hsame]
    obtain ⟨places,added,hblocks,hmade,-,hnodup⟩ := pages_made hout
    rw [hblocks,List.nil_append]
    exact ⟨pages,places,rfl,hmade,hnodup⟩

/-- A parsed document is resolvable exactly when on every page with text the
images left for review have rounded corners of their own. -/
theorem parsed_resolvable_iff {rounding : Rounding} {engine : Option Engine}
    {serialized : DocumentBlock → ℕ} {document : Option (List Page)} {parsed : ParsedPdf}
    (h : parsePdf rounding engine serialized document = .ok parsed) :
    ∃ pages : List Page, document = some pages ∧
      (Resolvable parsed.blocks ↔
        ∀ page ∈ pages.zipIdx 1, CornersApart rounding engine page) := by
  obtain ⟨pages,places,hdocument,hmade,hnodup⟩ := parsed_places h
  refine ⟨pages,hdocument,?_⟩
  rw [← hnodup]
  constructor
  · intro hresolvable
    have hids := hresolvable.blockIds
    rw [made_ids hmade] at hids
    exact hids.of_map
  · intro hplaces
    exact resolvable_made hmade hplaces

def tinyBox : List Coordinate := [.finite 0,.finite 0,.finite 100,.finite 100]

def tinyPage : Page :=
  ⟨0,tinyBox,tinyBox,.finite 100,.finite 100,[⟨some ['x'],50,55,50,60⟩],some [],
    [imageAt 10 10 (41/4) (41/4),imageAt (41/4) 10 (21/2) (41/4)]⟩

def tinySize (block : DocumentBlock) : ℕ := if block.kind = .text then 251 else 320

theorem tiny_images_read : ∃ parsed : ParsedPdf,
    parsePdf whole none tinySize (some [tinyPage]) = .ok parsed ∧
      ∃ pages : List Page, some [tinyPage] = some pages ∧
        (Resolvable parsed.blocks ↔ ∀ page ∈ pages.zipIdx 1, CornersApart whole none page) := by
  have hok : (parsePdf whole none tinySize (some [tinyPage])).isOk = true := by decide +kernel
  cases hparsed : parsePdf whole none tinySize (some [tinyPage]) with
  | error e =>
    rw [hparsed] at hok
    cases hok
  | ok parsed => exact ⟨parsed,rfl,parsed_resolvable_iff hparsed⟩

/-- Without an engine both images are left for review under one id. -/
theorem tiny_images_collide : ∃ parsed : ParsedPdf,
    parsePdf whole none tinySize (some [tinyPage]) = .ok parsed ∧
      parsed.blocks.map DocumentBlock.blockId = ["p001-line0001".toList,
        "p001-image-unrecognized-10-10".toList,"p001-image-unrecognized-10-10".toList] ∧
      ¬Resolvable parsed.blocks := by
  have hids : (parsePdf whole none tinySize (some [tinyPage])).toOption.map
      (fun parsed => parsed.blocks.map DocumentBlock.blockId) = some ["p001-line0001".toList,
        "p001-image-unrecognized-10-10".toList,"p001-image-unrecognized-10-10".toList] := by
    decide +kernel
  cases hparsed : parsePdf whole none tinySize (some [tinyPage]) with
  | error e =>
    rw [hparsed] at hids
    cases hids
  | ok parsed =>
    rw [hparsed] at hids
    have hids : parsed.blocks.map DocumentBlock.blockId = ["p001-line0001".toList,
        "p001-image-unrecognized-10-10".toList,"p001-image-unrecognized-10-10".toList] :=
      Option.some.inj hids
    refine ⟨parsed,rfl,hids,?_⟩
    intro hresolvable
    have hnodup := hresolvable.blockIds
    rw [hids] at hnodup
    revert hnodup
    decide

end LawyerAgent.PdfBlockIds
