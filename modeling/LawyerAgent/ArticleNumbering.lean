import LawyerAgent.ChineseCounting
import LawyerAgent.LegalCorpus
import LawyerAgent.Outcomes.Except

/-!
# Word article numbering

A paragraph that Word numbers has no article number in its text. The number is
restored from the list definitions: each list counts on from its start, and the
marker is written in front of the paragraph.
-/

set_option autoImplicit false

namespace LawyerAgent.WordArticleNumbering
open Common PythonText LegalArticleHeading
open ChineseCounting Regex

/-- An element of a parsed document, tags and attribute names without their namespace. -/
inductive Element where
  | mk (tag : String) (attributes : List (String × String)) (children : List Element)

def Element.tag : Element → String
  | .mk tag _ _ => tag

def Element.children : Element → List Element
  | .mk _ _ children => children

def Element.get : Element → String → Option String
  | .mk _ attributes _, name => attributes.lookup name

def Element.findall (node : Element) (tag : String) : List Element :=
  node.children.filter fun child => child.tag == tag

/-- `find` of `./pPr/numPr` -/
def numPrOf (paragraph : Element) : Option Element :=
  ((paragraph.findall "pPr").flatMap fun pPr => pPr.findall "numPr").head?

def attributeInt (node : Element) (name : String) : Except NumberingFailure (Option ℕ) :=
  match node.get name with
  | none => .ok none
  | some raw =>
    if raw.toList ≠ [] ∧ raw.toList.all isAsciiDigit = true then
      -- `int` refuses a text with more digits than this.
      if raw.toList.length > maxStrDigits then .error .digitLimit
      else .ok (some (asciiValue raw.toList))
    else .ok none

def singleInt (parent : Element) (tag : String) : Except NumberingFailure (Option ℕ) :=
  match parent.findall tag with
  | [node] => attributeInt node "val"
  | _ => .ok none

def singleValue (parent : Element) (tag : String) : Option String :=
  match parent.findall tag with
  | [node] => node.get "val"
  | _ => none

structure Level where
  numId : ℕ
  abstractNumId : ℕ
  ilvl : ℕ
  start : ℕ
  startOverride : Option ℕ
deriving DecidableEq

/-- The nodes by their identifiers, in the order in which these are first met. -/
def groupNode (groups : List (ℕ × List Element)) (id : ℕ) (node : Element) :
    List (ℕ × List Element) :=
  if id ∈ groups.map Prod.fst then
    groups.map fun g => if g.1 = id then (g.1,g.2++[node]) else g
  else groups++[(id,[node])]

/-- `setdefault(...).append(...)` over the nodes that have an identifier which is kept. -/
def groupNodes (name : String) (keep : ℕ → Bool) :
    List (ℕ × List Element) → List Element → Except NumberingFailure (List (ℕ × List Element))
  | groups, [] => .ok groups
  | groups, node::nodes => do
    match ← attributeInt node name with
    | some id =>
      if keep id then groupNodes name keep (groupNode groups id node) nodes
      else groupNodes name keep groups nodes
    | none => groupNodes name keep groups nodes

structure AbstractLevel where
  start : ℕ
  fmt : String
  template : String

/-- The level 0 of an abstract numbering, if its levels are told apart. -/
def abstractLevel (node : Element) : Except NumberingFailure (Option AbstractLevel) := do
  let levels := node.findall "lvl"
  let ids ← levels.mapM fun level => attributeInt level "ilvl"
  if none ∈ ids ∨ ¬ids.Nodup then pure none
  else
    match (levels.zip ids).filter fun l => l.2 == some 0 with
    | [(level,_)] =>
      match ← singleInt level "start" with
      | some start => pure (some ⟨start,(singleValue level "numFmt").getD "",
          (singleValue level "lvlText").getD ""⟩)
      | none => pure none
    | _ => pure none

def abstractLevels : List (ℕ × List Element) →
    Except NumberingFailure (List (ℕ × AbstractLevel))
  | [] => .ok []
  | (id,nodes)::groups => do
    match nodes with
    | [node] =>
      let found ← abstractLevel node
      let rest ← abstractLevels groups
      pure ((found.map fun level => (id,level)).toList++rest)
    | _ => abstractLevels groups

/-- The overrides of a list by level; `none` when one of them is unclear. -/
def overridesFrom : List (ℕ × ℕ) → List Element →
    Except NumberingFailure (Option (List (ℕ × ℕ)))
  | overrides, [] => .ok (some overrides)
  | overrides, node::nodes => do
    let ilvl ← attributeInt node "ilvl"
    let value ← singleInt node "startOverride"
    match ilvl, value with
    | some ilvl, some value =>
      if ilvl ∈ overrides.map Prod.fst then pure none
      else overridesFrom (overrides++[(ilvl,value)]) nodes
    | _, _ => pure none

def articleTemplate : Expression :=
  .seqs [.char '第',.char '%',.char '1',.char '条',horizontalSpace]

def Level.initial (level : Level) : ℕ := level.startOverride.getD level.start

/-- The level of a list that counts articles, at a number that can be rendered. -/
def articleLevel (numId abstractId : ℕ) (definition : AbstractLevel)
    (overrides : List (ℕ × ℕ)) : Option Level :=
  if definition.fmt ≠ "chineseCounting" ∨
      (fullmatch? articleTemplate definition.template.toList).isNone then none
  else
    let level : Level := ⟨numId,abstractId,0,definition.start,overrides.lookup 0⟩
    if level.initial = 0 ∨ 9999 < level.initial then none else some level

def resolveList (abstracts : List (ℕ × AbstractLevel)) (numId : ℕ) (num : Element) :
    Except NumberingFailure (Option Level) := do
  match ← singleInt num "abstractNumId" with
  | none => pure none
  | some abstractId =>
    match ← overridesFrom [] (num.findall "lvlOverride"), abstracts.lookup abstractId with
    | some overrides, some definition => pure (articleLevel numId abstractId definition overrides)
    | _, _ => pure none

def resolveLists (abstracts : List (ℕ × AbstractLevel)) : List (ℕ × List Element) →
    Except NumberingFailure (List ((ℕ × ℕ) × Level))
  | [] => .ok []
  | (numId,nodes)::groups => do
    match nodes with
    | [num] =>
      let found ← resolveList abstracts numId num
      let rest ← resolveLists abstracts groups
      pure ((found.map fun level => ((numId,0),level)).toList++rest)
    | _ => resolveLists abstracts groups

def definitions (root : Element) : Except NumberingFailure (List ((ℕ × ℕ) × Level)) := do
  let abstractNodes ← groupNodes "abstractNumId" (fun _ => true) [] (root.findall "abstractNum")
  let abstracts ← abstractLevels abstractNodes
  let numNodes ← groupNodes "numId" (fun id => id != 0) [] (root.findall "num")
  resolveLists abstracts numNodes

structure ArticleNumbering where
  sha256 : Digest
  levels : List ((ℕ × ℕ) × Level)

/-- The constructor; the element is what the payload parses to. -/
def articleNumbering (sha256 : List UInt8 → Digest) (payload : List UInt8) (root : Element) :
    Except NumberingFailure ArticleNumbering := do
  let levels ← definitions root
  pure ⟨sha256 payload,levels⟩

structure NumberingProvenance where
  originalText : Text
  xmlParagraphOrdinal : ℕ
  numberingSha256 : Digest
  numId : ℕ
  abstractNumId : ℕ
  ilvl : ℕ
  value : ℕ
  start : ℕ
  startOverride : Option ℕ

abbrev Counters : Type := ℕ × ℕ → Option ℕ

structure Paragraph where
  node : Element
  text : Text
  xmlOrdinal : ℕ

abbrev Restored : Type := Except NumberingFailure (Text × Option NumberingProvenance)

/-- The list of a paragraph and its level, if the list is a resolved one. -/
def numberedList (n : ArticleNumbering) (paragraph : Element) :
    Except NumberingFailure (Option ((ℕ × ℕ) × Level)) :=
  match numPrOf paragraph with
  | none => .ok none
  | some numPr => do
    let numId ← singleInt numPr "numId"
    let ilvl ← singleInt numPr "ilvl"
    match numId, ilvl with
    | some numId, some ilvl =>
      if numId = 0 then pure none
      else pure ((n.levels.lookup (numId,ilvl)).map fun level => ((numId,ilvl),level))
    | _, _ => pure none

/-- The number a list has reached; an override of zero would not count. -/
def nextValue (counters : Counters) (key : ℕ × ℕ) (level : Level) : ℕ :=
  (counters key).getD (match level.startOverride with
    | some (override+1) => override+1
    | _ => level.start)

def markerOf (numeral : Text) : Text := '第'::(numeral++['条'])

def provenanceOf (n : ArticleNumbering) (p : Paragraph) (key : ℕ × ℕ) (level : Level) (value : ℕ) :
    NumberingProvenance :=
  ⟨p.text,p.xmlOrdinal,n.sha256,key.1,level.abstractNumId,key.2,value,level.start,
    level.startOverride⟩

/-- `restore`, with the counters it leaves. -/
def restore (n : ArticleNumbering) (counters : Counters) (p : Paragraph) : Restored × Counters :=
  match numberedList n p.node with
  | .error e => (.error e,counters)
  | .ok none => (.ok (p.text,none),counters)
  | .ok (some (key,level)) =>
    let value := nextValue counters key level
    let counted := Function.update counters key (some (value+1))
    match chineseCounting value with
    | .error e => (.error e,counted)
    | .ok numeral =>
      let marker := markerOf numeral
      (.ok (if p.text = [] then marker else marker++ ' '::p.text,
        some (provenanceOf n p key level value)),counted)

def restoreAll (n : ArticleNumbering) : Counters → List Paragraph → List Restored
  | _, [] => []
  | counters, p::ps =>
    let step := restore n counters p
    step.1::restoreAll n step.2 ps

theorem articleLevel_initial {numId abstractId : ℕ} {definition : AbstractLevel}
    {overrides : List (ℕ × ℕ)} {level : Level}
    (h : articleLevel numId abstractId definition overrides = some level) :
    0 < level.initial ∧ level.initial ≤ 9999 := by
  unfold articleLevel at h
  dsimp only at h
  split_ifs at h with hformat hrange
  cases h
  omega

theorem resolveList_initial {abstracts : List (ℕ × AbstractLevel)} {numId : ℕ} {num : Element}
    {level : Level} (h : resolveList abstracts numId num = .ok (some level)) :
    0 < level.initial ∧ level.initial ≤ 9999 := by
  simp only [resolveList,Outcomes.bind_ok] at h
  obtain ⟨abstractId,-,h⟩ := h
  cases abstractId with
  | none => cases h
  | some abstractId =>
    simp only [Outcomes.bind_ok] at h
    obtain ⟨overrides,-,h⟩ := h
    split at h
    · exact articleLevel_initial (Except.ok.inj h)
    · cases h

theorem resolveLists_initial {abstracts : List (ℕ × AbstractLevel)}
    {groups : List (ℕ × List Element)} {levels : List ((ℕ × ℕ) × Level)}
    (h : resolveLists abstracts groups = .ok levels) :
    ∀ entry ∈ levels, entry.1.2 = 0 ∧ 0 < entry.2.initial ∧ entry.2.initial ≤ 9999 := by
  induction groups generalizing levels with
  | nil =>
    cases h
    simp
  | cons group groups ih =>
    obtain ⟨numId,nodes⟩ := group
    rcases nodes with _ | ⟨num,_ | ⟨other,nodes⟩⟩
    · exact ih h
    · simp only [resolveLists,Outcomes.bind_ok] at h
      obtain ⟨found,hfound,rest,hrest,h⟩ := h
      cases h
      intro entry hentry
      rcases List.mem_append.mp hentry with hnew | hold
      · obtain ⟨level,hlevel,rfl⟩ := Option.map_eq_some_iff.mp (Option.mem_toList.mp hnew)
        rw [hlevel] at hfound
        exact ⟨rfl,resolveList_initial hfound⟩
      · exact ih hrest entry hold
    · exact ih h

theorem articleNumbering_levels {sha256 : List UInt8 → Digest} {payload : List UInt8}
    {root : Element} {n : ArticleNumbering} (h : articleNumbering sha256 payload root = .ok n)
    {key : ℕ × ℕ} {level : Level} (hlevel : n.levels.lookup key = some level) :
    key.2 = 0 ∧ 0 < level.initial ∧ level.initial ≤ 9999 := by
  simp only [articleNumbering,definitions,Outcomes.bind_ok] at h
  obtain ⟨levels,⟨_,-,_,-,_,-,hlevels⟩,h⟩ := h
  cases h
  obtain ⟨before,after,hsplit,-⟩ := List.lookup_eq_some_iff.mp hlevel
  have hmem : (key,level) ∈ levels := by
    change levels = _ at hsplit
    rw [hsplit]
    exact List.mem_append_right before List.mem_cons_self
  exact resolveLists_initial hlevels _ hmem

theorem match_char (c : Char) (s : Text) :
    match? (.char c : Expression) (c::s) = some ⟨1,[]⟩ := match_set (beq_self_eq_true c)

theorem condition_plain : isNumeral '条' = false ∧ isHorizontal '条' = false := by decide

/-- What follows a marker is nothing or a blank. -/
def Ends (rest : Text) : Prop := rest = [] ∨ ∃ text, rest = ' '::text

theorem match_articleMarker {numeral rest : Text} (hne : numeral ≠ [])
    (hnumeral : ∀ c ∈ numeral, isNumeral c = true) (hrest : Ends rest) :
    match? articleMarker (markerOf numeral++rest) = some ⟨numeral.length+2,[]⟩ := by
  have hnumber : match? number (numeral++ '条'::rest) = some ⟨numeral.length,[]⟩ :=
    match_plus hne hnumeral (by simp [condition_plain.1])
  have hspace : match? horizontalSpace ('条'::rest) = some ⟨0,[]⟩ :=
    @match_star _ _ _ [] _ (by simp) (by simp [condition_plain.2])
  have hsupplement : run (.seq (.group .supplement (.seq (.char '之') number)) supplementEnd :
      Expression) rest = [] := by
    rcases hrest with rfl | ⟨text,rfl⟩
    · rfl
    · rfl
  have hplain : run (.char '之' : Expression) rest = [] := by
    rcases hrest with rfl | ⟨text,rfl⟩
    · rfl
    · rfl
  have hend := match_alt_right hsupplement (match_notAhead hplain)
  have hcondition := match_seq (match_char '条' rest) hend
  have htail := match_seq hspace hcondition
  have hbody : match? (.seq number (.seq horizontalSpace (.seq (.char '条')
      (.alt (.seq (.group .supplement (.seq (.char '之') number)) supplementEnd)
        (.notAhead (.char '之')))))) (numeral++ '条'::rest) = some ⟨numeral.length+1,[]⟩ := by
    rw [match_seq hnumber (by rw [List.drop_left]; exact htail)]
    rfl
  have hwhole := match_seq (match_char '第' (numeral++ '条'::rest)) hbody
  have htext : markerOf numeral++rest = '第'::(numeral++ '条'::rest) := by simp [markerOf]
  rw [htext]
  refine hwhole.trans ?_
  simp [Match.andThen,Nat.add_left_comm]

theorem match_heading {numeral rest : Text} (hne : numeral ≠ [])
    (hnumeral : ∀ c ∈ numeral, isNumeral c = true) (hrest : Ends rest) :
    ∃ heading, match? articleHeading (markerOf numeral++rest) = some heading ∧
      isSupplement heading = false ∧
      markerText heading (markerOf numeral++rest) = markerOf numeral := by
  have hfirst : isSpace '第' = false := by decide
  have hspaces : match? spaces (markerOf numeral++rest) = some ⟨0,[]⟩ :=
    @match_star _ _ _ [] _ (by simp) (by simp [hfirst])
  have hmarker := match_group Group.marker (match_articleMarker hne hnumeral hrest)
  obtain ⟨last,hlast⟩ := match_star_some (.set isSpace : Expression)
    ((markerOf numeral++rest).drop (numeral.length+2))
  have hgroups := star_groups hlast
  have hheading := match_seq hspaces (match_seq hmarker hlast)
  refine ⟨_,hheading,?_,?_⟩
  · simp [isSupplement,Match.group,Match.andThen,Capture.shift,hgroups]
  · have htake : (markerOf numeral++rest).take (numeral.length+2) = markerOf numeral :=
      List.take_left' (by simp [markerOf])
    simp [markerText,Match.textOf,Match.group,Match.andThen,Capture.shift,hgroups,Capture.text,
      slice,htake]

/-- The marker reads as the number, by the heading pattern and by the numeral. -/
def Marked (text : Text) (value : ℕ) : Prop :=
  ∃ heading numeral, match? articleHeading text = some heading ∧ isSupplement heading = false ∧
    markerText heading text = markerOf numeral ∧ cnNumber numeral = some value ∧
    markerNumber (markerOf numeral) = some value

theorem match_articleNo {numeral : Text} (hne : numeral ≠ [])
    (hnumeral : ∀ c ∈ numeral, isNumeral c = true) :
    fullmatch? articleNo (markerOf numeral) =
      some ⟨numeral.length+2,[⟨Group.article,1,1+numeral.length⟩]⟩ := by
  have hnumber : match? number (numeral++['条']) = some ⟨numeral.length,[]⟩ :=
    match_plus hne hnumeral (by simp [condition_plain.1])
  have hend : match? (.opt (.seq (.char '之') (.group .supplement number)) : Expression) [] =
      some ⟨0,[]⟩ := rfl
  have hcondition := match_seq (match_char '条' []) hend
  have hbody := match_seq (match_group Group.article hnumber)
    (by rw [List.drop_left]; exact hcondition)
  have hwhole := match_seq (match_char '第' (numeral++['条'])) hbody
  have hstop : match? articleNo (markerOf numeral) =
      some ⟨numeral.length+2,[⟨Group.article,1,1+numeral.length⟩]⟩ := by
    refine hwhole.trans ?_
    simp [Match.andThen,Capture.shift,Nat.add_left_comm]
  exact fullmatch_first hstop (by simp [markerOf])

theorem markerNumber_counting {numeral : Text} {value : ℕ} (hne : numeral ≠ [])
    (hchars : ∀ c ∈ numeral, c ∈ countingChars) (hnumber : cnNumber numeral = some value) :
    markerNumber (markerOf numeral) = some value := by
  have hspaces : removeSpaces (markerOf numeral) = markerOf numeral := by
    apply List.filter_eq_self.mpr
    have hends : isSpace '第' = false ∧ isSpace '条' = false := by decide
    intro c hc
    simp only [markerOf,List.mem_cons,List.mem_append,List.not_mem_nil,or_false] at hc
    rcases hc with rfl | hc | rfl
    · rw [hends.1]
      rfl
    · rw [(countingChars_plain c (hchars c hc)).2.2.2]
      rfl
    · rw [hends.2]
      rfl
  have hfull := match_articleNo hne fun c hc => (countingChars_plain c (hchars c hc)).2.2.1
  have htext : (⟨numeral.length+2,[⟨Group.article,1,1+numeral.length⟩]⟩ : Match Group).textOf
      .article (markerOf numeral) = numeral := by
    simp [Match.textOf,Match.group,Capture.text,slice,markerOf,Nat.add_comm 1]
  unfold markerNumber
  dsimp only
  rw [hspaces,hfull]
  dsimp only
  rw [htext,hnumber]
  rfl

theorem marked {numeral text : Text} {value : ℕ} (h : chineseCounting value = .ok numeral) :
    Marked (if text = [] then markerOf numeral else markerOf numeral++ ' '::text) value := by
  obtain ⟨hnumber,hne,hchars⟩ := cnNumber_counting h
  have hends : ∃ rest, Ends rest ∧
      (if text = [] then markerOf numeral else markerOf numeral++ ' '::text) =
        markerOf numeral++rest := by
    split
    · exact ⟨[],Or.inl rfl,(List.append_nil _).symm⟩
    · exact ⟨_,Or.inr ⟨text,rfl⟩,rfl⟩
  obtain ⟨rest,hrest,htext⟩ := hends
  rw [htext]
  obtain ⟨heading,hmatch,hplain,hmarker⟩ := match_heading hne
    (fun c hc => (countingChars_plain c (hchars c hc)).2.2.1) hrest
  exact ⟨heading,numeral,hmatch,hplain,hmarker,hnumber,markerNumber_counting hne hchars hnumber⟩

def listKey (n : ArticleNumbering) (p : Paragraph) : Option (ℕ × ℕ) :=
  match numberedList n p.node with
  | .ok (some (key,_)) => some key
  | _ => none

theorem numberedList_level {n : ArticleNumbering} {node : Element} {key : ℕ × ℕ} {level : Level}
    (h : numberedList n node = .ok (some (key,level))) : n.levels.lookup key = some level := by
  unfold numberedList at h
  split at h
  · cases h
  · simp only [Outcomes.bind_ok] at h
    obtain ⟨numId,-,ilvl,-,h⟩ := h
    split at h
    · split_ifs at h
      · cases h
      · obtain ⟨found,hfound,hsame⟩ := Option.map_eq_some_iff.mp (Except.ok.inj h)
        cases hsame
        exact hfound
    · cases h

theorem restore_counts {n : ArticleNumbering} (counters : Counters) (p : Paragraph)
    {key : ℕ × ℕ} {level : Level} (hlevel : n.levels.lookup key = some level) :
    nextValue (restore n counters p).2 key level =
      nextValue counters key level+if listKey n p = some key then 1 else 0 := by
  unfold restore listKey
  cases hlist : numberedList n p.node with
  | error e => rfl
  | ok found =>
    cases found with
    | none => rfl
    | some entry =>
      obtain ⟨other,otherLevel⟩ := entry
      dsimp only
      have hcounted : ∀ outcome : Restored, nextValue (outcome,Function.update counters other
          (some (nextValue counters other otherLevel+1))).2 key level =
            nextValue counters key level+if some other = some key then 1 else 0 := by
        intro outcome
        by_cases hsame : other = key
        · subst hsame
          have hequal : otherLevel = level :=
            Option.some.inj ((numberedList_level hlist).symm.trans hlevel)
          rw [hequal,if_pos rfl]
          simp [nextValue]
        · rw [if_neg (fun h => hsame (Option.some.inj h))]
          simp [nextValue,Function.update_of_ne (Ne.symm hsame)]
      cases chineseCounting (nextValue counters other otherLevel) with
      | error e => exact hcounted _
      | ok numeral => exact hcounted _

/-- The `i`-th paragraph of a document meets the counters that the paragraphs before it leave. -/
theorem restoreAll_get {n : ArticleNumbering} {counters : Counters} {ps : List Paragraph} {i : ℕ}
    {p : Paragraph} (hp : ps[i]? = some p) {key : ℕ × ℕ} {level : Level}
    (hlevel : n.levels.lookup key = some level) :
    ∃ reached, (restoreAll n counters ps)[i]? = some (restore n reached p).1 ∧
      nextValue reached key level =
        nextValue counters key level+(ps.take i).countP fun q => listKey n q = some key := by
  induction ps generalizing counters i with
  | nil => cases hp
  | cons q ps ih =>
    cases i with
    | zero =>
      rw [List.getElem?_cons_zero,Option.some_inj] at hp
      exact ⟨counters,by rw [hp]; rfl,rfl⟩
    | succ i =>
      rw [List.getElem?_cons_succ] at hp
      obtain ⟨reached,hget,hvalue⟩ := @ih (restore n counters q).2 _ hp
      refine ⟨reached,hget,?_⟩
      rw [hvalue,restore_counts counters q hlevel,List.take_succ_cons,List.countP_cons]
      simp only [decide_eq_true_eq]
      omega

theorem nextValue_initial {counters : Counters} {key : ℕ × ℕ} {level : Level}
    (h : 0 < level.initial) : nextValue counters key level = (counters key).getD level.initial := by
  unfold nextValue
  unfold Level.initial at h ⊢
  cases hoverride : level.startOverride with
  | none => rfl
  | some override =>
    cases override with
    | zero => simp [hoverride] at h
    | succ override => rfl

def withMarker (numeral : Text) (p : Paragraph) : Text :=
  if p.text = [] then markerOf numeral else markerOf numeral++ ' '::p.text

/-- A paragraph of a list gets the number that the list has reached, in a marker
that reads as this number, or the reading stops. -/
theorem restore_sound {sha256 : List UInt8 → Digest} {payload : List UInt8} {root : Element}
    {n : ArticleNumbering} (h : articleNumbering sha256 payload root = .ok n)
    (counters : Counters) (ps : List Paragraph) (i : ℕ) (p : Paragraph) (hp : ps[i]? = some p)
    (key : ℕ × ℕ) (level : Level) (hlist : numberedList n p.node = .ok (some (key,level))) :
    key.2 = 0 ∧ 0 < level.initial ∧ level.initial ≤ 9999 ∧
      ∃ value, value = (counters key).getD level.initial+
          ((ps.take i).countP fun q => listKey n q = some key) ∧
        ((value = 0 ∨ 9999 < value) ∧
            (restoreAll n counters ps)[i]? = some (.error .unsupported) ∨
          (0 < value ∧ value ≤ 9999) ∧ ∃ numeral,
            (restoreAll n counters ps)[i]? = some (.ok (withMarker numeral p,
              some (provenanceOf n p key level value))) ∧
            Marked (withMarker numeral p) value) := by
  have hlevel := numberedList_level hlist
  obtain ⟨hzero,hpos,hle⟩ := articleNumbering_levels h hlevel
  obtain ⟨reached,hget,hvalue⟩ := @restoreAll_get _ counters _ _ _ hp _ _ hlevel
  rw [@nextValue_initial counters _ _ hpos] at hvalue
  refine ⟨hzero,hpos,hle,_,hvalue,?_⟩
  rw [hget]
  unfold restore
  rw [hlist]
  dsimp only
  by_cases hrange : nextValue reached key level = 0 ∨ 9999 < nextValue reached key level
  · left
    have hcounting : chineseCounting (nextValue reached key level) = .error .unsupported :=
      if_pos hrange
    rw [hcounting]
    exact ⟨hrange,rfl⟩
  · right
    obtain ⟨numeral,hcounting⟩ : ∃ numeral, chineseCounting (nextValue reached key level) =
        .ok numeral := ⟨_,if_neg hrange⟩
    rw [hcounting]
    exact ⟨by omega,numeral,rfl,marked hcounting⟩

def valueNode (tag value : String) : Element := .mk tag [("val",value)] []

/-- One list, which starts at nineteen. -/
def sampleRoot : Element :=
  .mk "numbering" [] [.mk "abstractNum" [("abstractNumId","0")]
      [.mk "lvl" [("ilvl","0")] [valueNode "start" "19",valueNode "numFmt" "chineseCounting",
        valueNode "lvlText" "第%1条"]],
    .mk "num" [("numId","7")] [valueNode "abstractNumId" "0"]]

def sampleParagraph (text : Text) : Paragraph :=
  ⟨.mk "p" [] [.mk "pPr" [] [.mk "numPr" [] [valueNode "ilvl" "0",valueNode "numId" "7"]]],text,0⟩

theorem sample_numbering : articleNumbering (fun _ => 0) [] sampleRoot =
    .ok ⟨0,[((7,0),⟨7,0,0,19,none⟩)]⟩ := by rfl

theorem restore_sound_sample :
    ∃ numeral, Marked (withMarker numeral (sampleParagraph ['文'])) 20 := by
  have hsound := restore_sound sample_numbering (fun _ => none)
    [sampleParagraph [],sampleParagraph ['文']] 1 (sampleParagraph ['文']) rfl (7,0)
    ⟨7,0,0,19,none⟩ (by rfl)
  obtain ⟨-,-,-,value,hvalue,hcases⟩ := hsound
  have htwenty : value = 20 := hvalue
  subst htwenty
  rcases hcases with ⟨hrange,-⟩ | ⟨-,numeral,-,hmarked⟩
  · omega
  · exact ⟨numeral,hmarked⟩

end LawyerAgent.WordArticleNumbering
