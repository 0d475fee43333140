import LawyerAgent.CorpusExport

/-!
# Rows that are written and read back

A row without a line boundary of its own is read back from its line. A text
with one is cut inside of a string, so that its file is refused.
-/

set_option autoImplicit false

namespace LawyerAgent.CorpusExport
open Common
open CanonicalJson (encode)
open JsonReader (decode decode_encode)
open PythonJson (Value plainText keyIs)
open JsonDecoding (loads)
open JsonLines
open JsonLoads (isBlank nesting itemsNesting fieldsNesting)
open RejoinedLines (endsLine splitlines)

theorem item_items (fields : Fields) (name : String) :
    item (items fields) name = fields.lookup name := by
  induction fields with
  | nil => rfl
  | cons f fields ih =>
    have hkey : keyIs (plainText name.toList) (.str (plainText f.1.toList),f.2) =
        decide (f.1 = name) := by
      apply decide_eq_decide.mpr
      constructor
      · intro h
        exact String.toList_injective (DatasetFacts.plainText_inj h)
      · rintro rfl
        rfl
    change Option.map Prod.snd (List.find? _ (_::items fields)) = _
    rw [List.find?_cons,hkey]
    by_cases hname : f.1 = name
    · subst hname
      rw [decide_eq_true rfl]
      exact (List.lookup_cons_self (k := f.1) (b := f.2)).symm
    · have hother : (name == f.1) = false := beq_eq_false_iff_ne.mpr (Ne.symm hname)
      rw [decide_eq_false hname,List.lookup_cons,hother]
      exact ih

theorem field_items (fields : Fields) (name : String) :
    field (items fields) name = (fields.lookup name).getD .none := by
  rw [← item_items]
  rfl

theorem nesting_items {fields : Fields} {n : ℕ} (h : ∀ f ∈ fields, nesting f.2 ≤ n) :
    nesting (.dict (items fields)) ≤ n+1 := by
  have hall : fieldsNesting (items fields) ≤ n := by
    induction fields with
    | nil => exact Nat.zero_le n
    | cons f fields ih =>
      obtain ⟨hf,hfields⟩ := List.forall_mem_cons.mp h
      exact max_le hf (ih hfields)
  rw [nesting]
  omega

theorem nesting_list {values : List Value} {n : ℕ} (h : ∀ v ∈ values, nesting v ≤ n) :
    nesting (.list values) ≤ n+1 := by
  have hall : itemsNesting values ≤ n := by
    induction values with
    | nil => exact Nat.zero_le n
    | cons v values ih =>
      obtain ⟨hv,hvalues⟩ := List.forall_mem_cons.mp h
      exact max_le hv (ih hvalues)
  rw [nesting]
  omega

theorem nesting_map {α : Type} {f : α → Value} (xs : List α) (h : ∀ a, nesting (f a) = 0) :
    nesting (.list (xs.map f)) ≤ 1 :=
  nesting_list (List.forall_mem_map.mpr fun a _ => (h a).le)

theorem nesting_optional {α : Type} {f : α → Value} {n : ℕ} (a : Option α)
    (h : ∀ a, nesting (f a) ≤ n) : nesting (optional f a) ≤ n := by
  cases a with
  | none => exact Nat.zero_le n
  | some a => exact h a

variable {sha256 : List UInt8 → Digest} {job : ExportJob} {bytes : List UInt8} {frames : ℕ}

theorem nesting_paragraph (p : ExportParagraph) :
    nesting (.dict (items (paragraphFields sha256 job p))) ≤ 2 := by
  apply nesting_items
  have hnumbering : ∀ f ∈ (p.numberingProvenance.map fun n => (("numbering_provenance",
      Value.dict (items (numberingFields n))) : String × Value)).toList, nesting f.2 ≤ 1 := by
    intro f hf
    obtain ⟨n,-,rfl⟩ := Option.map_eq_some_iff.mp (Option.mem_toList.mp hf)
    apply nesting_items
    have hstart : nesting (optional number n.startOverride) ≤ 0 :=
      nesting_optional _ fun _ => le_refl 0
    simp only [numberingFields,List.forall_mem_cons,List.not_mem_nil,false_implies,implies_true,
      and_true]
    exact ⟨le_refl 0,le_refl 0,le_refl 0,le_refl 0,le_refl 0,le_refl 0,hstart,le_refl 0,le_refl 0⟩
  have hplace := nesting_optional p.tablePosition fun t : ℕ × ℕ × ℕ =>
    nesting_map (f := number) [t.1,t.2.1,t.2.2] fun _ => rfl
  rw [paragraphFields,List.forall_mem_cons,List.forall_mem_append]
  refine ⟨Nat.zero_le 1,hnumbering,?_⟩
  simp only [List.forall_mem_cons,List.not_mem_nil,false_implies,implies_true,and_true]
  exact ⟨Nat.zero_le 1,Nat.zero_le 1,Nat.zero_le 1,hplace,Nat.zero_le 1⟩

theorem nesting_chunk (c : ChunkRow) :
    nesting (.dict (items (chunkFields sha256 job c))) ≤ 2 := by
  have hnumbers : ∀ ns, nesting (numbers ns) ≤ 1 := fun ns => nesting_map ns fun _ => rfl
  have hrange : ∀ r, nesting (rangeValue r) ≤ 1 := fun r => hnumbers _
  have htext : ∀ t, nesting (textValue t) ≤ 1 := fun t => Nat.zero_le 1
  apply nesting_items
  simp only [chunkFields,List.forall_mem_cons,List.not_mem_nil,false_implies,implies_true,and_true]
  exact ⟨nesting_optional _ htext,htext _,htext _,htext _,nesting_optional _ fun _ => htext _,
    hrange _,nesting_optional _ hrange,hnumbers _,nesting_optional _ hrange,htext _,hnumbers _,
    nesting_map _ fun _ => rfl,htext _⟩

theorem nesting_document (p : Prepared) (paragraphs chunks : Digest) :
    nesting (.dict (items (documentFields sha256 job p paragraphs chunks))) ≤ 2 := by
  have htext : ∀ t, nesting (textValue t) ≤ 1 := fun t => Nat.zero_le 1
  have hword : ∀ w, nesting (wordValue w) ≤ 1 := fun w => Nat.zero_le 1
  have hnumber : ∀ n, nesting (number n) ≤ 1 := fun n => Nat.zero_le 1
  have hscalars : ∀ fields : Fields, (∀ f ∈ fields, nesting f.2 ≤ 0) →
      nesting (.dict (items fields)) ≤ 1 := fun fields h => nesting_items h
  have hconfig : nesting (.dict (items (configurationFields job.config))) ≤ 1 := by
    apply hscalars
    simp only [configurationFields,List.forall_mem_cons,List.not_mem_nil,false_implies,
      implies_true,and_true]
    exact ⟨le_refl 0,le_refl 0,le_refl 0⟩
  have hprovenance : ∀ c, nesting (.dict (items (provenanceFields c))) ≤ 1 := by
    intro c
    apply hscalars
    have hoptional : ∀ t, nesting (optional textValue t) ≤ 0 :=
      fun t => nesting_optional t fun _ => le_refl 0
    simp only [provenanceFields,List.forall_mem_cons,List.not_mem_nil,false_implies,
      implies_true,and_true]
    refine ⟨hoptional _,hoptional _,?_⟩
    split_ifs
    · exact le_refl 0
    · exact le_refl 0
  apply nesting_items
  simp only [documentFields,List.forall_mem_cons,List.not_mem_nil,false_implies,implies_true,
    and_true]
  exact ⟨hnumber _,hnumber _,hconfig,nesting_optional _ hprovenance,nesting_optional _ fun _ =>
    htext _,hnumber _,htext _,hword _,hword _,htext _,le_refl 1,hword _,le_refl 1,hnumber _,
    hnumber _,hword _,nesting_map _ fun _ => rfl,hword _,htext _,htext _,htext _⟩

theorem universalNewlines_same {text : List Char} (h : '\r' ∉ text) :
    universalNewlines text = text := by
  induction text with
  | nil => rfl
  | cons c text ih =>
    obtain ⟨hc,htext⟩ := not_or.mp (List.mem_cons.not.mp h)
    rw [universalNewlines,if_neg (Ne.symm hc),ih htext]
    rintro rest rfl
    exact absurd rfl hc

theorem readText_encode {text : List Char} (h : '\r' ∉ text) :
    readText (encode text) = .ok text := by
  rw [readText,decode_encode]
  exact congrArg Except.ok (universalNewlines_same h)

/-- A file without the line boundaries that JSON leaves in a string. -/
def Unbroken (bytes : List UInt8) : Prop :=
  ∀ text, decode bytes = some text → ∀ c ∈ text, c.toNat ∉ [0x85,0x2028,0x2029]

theorem sealed_carriage {flat : Prop} {text : List Char} (h : Sealed flat text) : '\r' ∉ text := by
  intro hc
  rcases h.visible _ hc with hlow | ⟨hnewline,-⟩
  · exact absurd hlow (by decide)
  · exact absurd hnewline (by decide)

theorem sealed_ends {flat : Prop} {text : List Char} {c : Char} (h : Sealed flat text)
    (hflat : flat) (hc : c ∈ text) : endsLine c = true ↔ c.toNat ∈ [0x85,0x2028,0x2029] := by
  rcases h.visible c hc with hlow | ⟨-,hplain⟩
  · simp only [endsLine,Bool.or_eq_true,beq_iff_eq,List.mem_cons,List.not_mem_nil,or_false]
    omega
  · exact absurd hflat hplain

/-- The lines of a file, each the text of its row. -/
def Lined (rows : List Fields) (parts : List (List Char)) : Prop :=
  List.Forall₂ (fun row part => dumps inline 0 (.dict (items row)) = some part) rows parts

variable {rows : List Fields} {parts : List (List Char)}

theorem jsonl_ok (h : jsonl rows = .ok bytes) :
    ∃ parts, Lined rows parts ∧ bytes = encode (rowLines parts) := by
  unfold jsonl at h
  cases hparts : rows.mapM fun row => dumps inline 0 (.dict (items row)) with
  | none =>
    rw [hparts] at h
    cases h
  | some parts =>
    rw [hparts] at h
    cases h
    exact ⟨parts,Outcomes.mapM_some.mp hparts,rfl⟩

theorem lined_sealed (h : Lined rows parts) : ∀ part ∈ parts, Sealed inline.Flat part :=
  forall₂_right h fun _ _ hpart => (dumps_written 0 _ hpart).whole

theorem rowLines_carriage (h : Lined rows parts) : '\r' ∉ rowLines parts := by
  intro hc
  obtain ⟨part,hpart,hline⟩ := List.mem_flatMap.mp hc
  rcases List.mem_append.mp hline with hin | hend
  · exact sealed_carriage (lined_sealed h part hpart) hin
  · exact absurd (List.mem_singleton.mp hend) (by decide)

theorem unbroken_iff (h : Lined rows parts) : Unbroken (encode (rowLines parts)) ↔
    ∀ part ∈ parts, ∀ c ∈ part, endsLine c = false := by
  constructor
  · intro hunbroken part hpart c hc
    have hmem : c ∈ rowLines parts := List.mem_flatMap.mpr ⟨part,hpart,List.mem_append_left _ hc⟩
    rw [Bool.eq_false_iff]
    intro hend
    exact hunbroken _ (decode_encode _) c hmem
      ((sealed_ends (lined_sealed h part hpart) inline_flat hc).mp hend)
  · intro hplain text htext c hc hbreak
    rw [decode_encode] at htext
    cases htext
    obtain ⟨part,hpart,hline⟩ := List.mem_flatMap.mp hc
    rcases List.mem_append.mp hline with hin | hend
    · have hend := (sealed_ends (lined_sealed h part hpart) inline_flat hin).mpr hbreak
      rw [hplain part hpart c hin] at hend
      cases hend
    · rw [List.mem_singleton.mp hend] at hbreak
      exact absurd hbreak (by decide)

theorem readJsonl_written (h : Lined rows parts) (hplain : Unbroken (encode (rowLines parts)))
    (hframes : ∀ row ∈ rows, nesting (.dict (items row)) ≤ frames) :
    readJsonl frames (encode (rowLines parts)) = .ok (rows.map items) := by
  have hlines := splitlines_rows ((unbroken_iff h).mp hplain)
  have hread : List.Forall₂ (fun line row => (loads frames line).bind dictItems = .ok row) parts
      (rows.map items) := by
    clear hlines hplain
    unfold Lined at h
    induction h with
    | nil => exact .nil
    | @cons row part rows parts hrow hrows ih =>
      obtain ⟨hsmall,hlater⟩ := List.forall_mem_cons.mp hframes
      have hloads := loads_dumps hrow hsmall [] (by simp [JsonTexts.Blanks])
      rw [List.append_nil] at hloads
      refine .cons ?_ (ih hlater)
      rw [hloads]
      rfl
  rw [readJsonl,readText_encode (rowLines_carriage h)]
  change (splitlines (rowLines parts)).mapM _ = _
  rw [hlines]
  exact Outcomes.mapM_ok.mpr hread

/-- A file that is read has no line that ends in a string. -/
theorem readJsonl_unbroken (h : Lined rows parts) {loaded : List (List (Value × Value))}
    (hread : readJsonl frames (encode (rowLines parts)) = .ok loaded) :
    Unbroken (encode (rowLines parts)) := by
  rw [readJsonl,readText_encode (rowLines_carriage h)] at hread
  have hall := Outcomes.mapM_ok.mp hread
  rw [unbroken_iff h]
  intro part hpart c hc
  rw [Bool.eq_false_iff]
  intro hend
  obtain ⟨line,hline,hopen⟩ := splitlines_broken inline_flat (lined_sealed h)
    ⟨part,hpart,c,hc,hend⟩
  have hflip : List.Forall₂ (fun row line => (loads frames line).bind dictItems = .ok row) loaded
      (splitlines (rowLines parts)) := List.Forall₂.flip hall
  have hclosed := forall₂_right (P := fun line => JsonDecoding.quoting .outside line = .outside)
    hflip fun _ _ hrow => by
      obtain ⟨_,hvalue,-⟩ := JsonDecoding.bind_ok.mp hrow
      exact loads_closed hvalue
  exact hopen (hclosed line hline)

/-- A file of rows is read back as the rows it was written from or not at all, and
it is read if and only if no row holds a line boundary. -/
theorem jsonl_read (h : jsonl rows = .ok bytes)
    (hframes : ∀ row ∈ rows, nesting (.dict (items row)) ≤ frames) :
    (readJsonl frames bytes = .ok (rows.map items) ↔ Unbroken bytes) ∧
      ∀ loaded, readJsonl frames bytes = .ok loaded → loaded = rows.map items := by
  obtain ⟨parts,hlined,rfl⟩ := jsonl_ok h
  constructor
  · constructor
    · exact readJsonl_unbroken hlined
    · intro hplain
      exact readJsonl_written hlined hplain hframes
  · intro loaded hread
    have hplain := readJsonl_unbroken hlined hread
    rw [readJsonl_written hlined hplain hframes] at hread
    exact (Except.ok.inj hread).symm

def separatorRow : Fields := [("text",textValue ['甲',Char.ofNat 0x2028])]

theorem separator_read : ∃ bytes, jsonl [separatorRow] = .ok bytes ∧
    ((readJsonl 1 bytes = .ok [items separatorRow] ↔ Unbroken bytes) ∧
      ∀ loaded, readJsonl 1 bytes = .ok loaded → loaded = [items separatorRow]) := by
  have hrun : ∃ bytes, jsonl [separatorRow] = .ok bytes := ⟨_,rfl⟩
  obtain ⟨bytes,hbytes⟩ := hrun
  exact ⟨bytes,hbytes,jsonl_read hbytes (by decide)⟩

theorem json_read {I : Interpreter} {fields : Fields} (h : json fields = .ok bytes)
    (hframes : nesting (.dict (items fields)) ≤ I.frames) :
    readDocument I bytes = .ok (items fields) := by
  unfold json at h
  cases htext : dumps indented 0 (.dict (items fields)) with
  | none =>
    rw [htext] at h
    cases h
  | some text =>
    rw [htext] at h
    cases h
    have hcarriage : '\r' ∉ text++['\n'] := by
      rw [List.mem_append,not_or]
      exact ⟨sealed_carriage (dumps_written 0 _ htext).whole,by decide⟩
    have hloads := loads_dumps htext hframes ['\n']
      (by simp [JsonTexts.Blanks,isBlank])
    rw [readDocument,readText_encode hcarriage]
    change (loads I.frames (text++['\n'])).bind dictItems = _
    rw [hloads]
    rfl

end LawyerAgent.CorpusExport
