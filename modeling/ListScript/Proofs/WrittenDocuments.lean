import ListScript.Proofs.WrittenLines
import ListScript.Toml.Document

/-!
# Written documents are read back

A document that was written line by line is read as these lines, and empty lines in between are passed over. The lines
add up to a table in which each name has the value that was written for it.
-/
namespace ListScript.Toml

/-! ## Texts of lines -/

/-- A text is read as certain lines, whatever follows it. It has no carriage return and does not begin with a byte order
mark, so it is read as it stands. -/
structure ReadsAs (cs : List Char) (ls : List Line) : Prop where
  read : ∀ bound rest, lines (ls.length + bound) (cs ++ rest) = (lines bound rest).map (ls ++ ·)
  length_le : ls.length ≤ cs.length
  return_not_mem : '\r' ∉ cs
  head?_ne : cs.head? ≠ some '\ufeff'

namespace ReadsAs

variable {cs₁ cs₂ : List Char} {ls₁ ls₂ : List Line}

theorem nil : ReadsAs [] [] where
  read bound rest := by simp
  length_le := Nat.le_refl 0
  return_not_mem := by simp
  head?_ne := by simp

theorem append (h₁ : ReadsAs cs₁ ls₁) (h₂ : ReadsAs cs₂ ls₂) : ReadsAs (cs₁ ++ cs₂) (ls₁ ++ ls₂) where
  read bound rest := by
    rw [List.length_append,Nat.add_assoc,List.append_assoc,h₁.read,h₂.read,Option.map_map]
    simp [Function.comp_def]
  length_le := by
    rw [List.length_append,List.length_append]
    exact Nat.add_le_add h₁.length_le h₂.length_le
  return_not_mem := by simp [h₁.return_not_mem,h₂.return_not_mem]
  head?_ne := by
    cases cs₁ with
    | nil => exact h₂.head?_ne
    | cons c cs₁ => exact h₁.head?_ne

/-- An empty line is passed over. -/
theorem emptyLine : ReadsAs ['\n'] [] where
  read bound rest := by cases bound <;> simp [lines,skipGap]
  length_le := Nat.zero_le 1
  return_not_mem := by decide
  head?_ne := by decide

/-- A text that is read as one line and begins neither like a blank nor like a comment. -/
theorem oneLine {c : Char} {cs : List Char} {l : Line} (hread : ∀ rest, line (c :: cs ++ rest) = some (l,rest))
    (hstart : isBare c = true ∨ c = '[') (hreturn : '\r' ∉ c :: cs) : ReadsAs (c :: cs) [l] where
  read bound rest := by
    have hne : ∀ d, isBare d = false → d ≠ '[' → c ≠ d := by
      intro d hd hd'
      exact hstart.elim (fun h => ne_of_isBare h hd) (fun h => h ▸ Ne.symm hd')
    have hblank : isBlank c = false := by
      simp [isBlank,hne ' ' rfl (by decide),hne '\t' rfl (by decide)]
    have hgap : skipGap false (c :: cs ++ rest) = c :: cs ++ rest :=
      skipGap_cons (hne '\n' rfl (by decide)) hblank (hne '#' rfl (by decide)) _
    rw [List.length_singleton,Nat.add_comm,lines,hgap]
    simp only [List.cons_append] at hread ⊢
    rw [hread]
    simp only [Option.bind_eq_bind,Option.bind_some]
    cases lines bound rest <;> rfl
  length_le := by simp
  return_not_mem := hreturn
  head?_ne := by
    rintro ⟨⟩
    exact absurd hstart (by decide)

/-- A list of texts is read as the lines of all of them. -/
theorem flatMap {α : Type} {write : α → List Char} {ls : α → List Line} {as : List α}
    (h : ∀ a ∈ as, ReadsAs (write a) (ls a)) : ReadsAs (as.flatMap write) (as.flatMap ls) := by
  induction as with
  | nil => exact nil
  | cons a as ih =>
    rw [List.forall_mem_cons] at h
    exact h.1.append (ih h.2)

/-- Empty lines may stand in between. -/
theorem intercalate {parts : List (List Char × List Line)} (h : ∀ part ∈ parts, ReadsAs part.1 part.2) :
    ReadsAs (['\n'].intercalate (parts.map Prod.fst)) (parts.flatMap Prod.snd) := by
  induction parts with
  | nil => exact nil
  | cons part parts ih =>
    rw [List.forall_mem_cons] at h
    cases parts with
    | nil => simpa using h.1
    | cons next parts =>
      have hrest := emptyLine.append (ih h.2)
      simpa [List.intercalate_cons_cons] using h.1.append hrest

end ReadsAs

theorem unifyBreaks_of_return_not_mem {cs : List Char} (h : '\r' ∉ cs) : unifyBreaks cs = cs := by
  induction cs with
  | nil => rfl
  | cons c cs ih =>
    rw [List.mem_cons,not_or] at h
    unfold unifyBreaks
    split
    · next heq => exact absurd (List.cons.inj heq).1 (Ne.symm h.1)
    · next heq =>
      obtain ⟨rfl,rfl⟩ := List.cons.inj heq
      rw [ih h.2]
    · next heq => exact (List.cons_ne_nil _ _ heq).elim

theorem skipMark_of_head?_ne {cs : List Char} (h : cs.head? ≠ some '\ufeff') : skipMark cs = cs := by
  unfold skipMark
  split
  · exact absurd rfl h
  · rfl

/-- The table in a document is what its lines add up to. -/
theorem ReadsAs.ofText? {text : String} {ls : List Line} (h : ReadsAs text.toList ls) :
    Table.ofText? text = Table.ofLines ls := by
  -- The lines are read with the length of the text as the bound, and each of them takes up a character.
  have hread := h.read (text.toList.length - ls.length + 1) []
  have hbound : ls.length + (text.toList.length - ls.length + 1) = text.toList.length + 1 := by
    have := h.length_le
    omega
  rw [hbound,List.append_nil] at hread
  simp only [Table.ofText?,skipMark_of_head?_ne h.head?_ne,unifyBreaks_of_return_not_mem h.return_not_mem,hread]
  simp [lines,skipGap]

/-! ## Written documents -/

theorem readsAs_field {field : String × Datum} (h : IsName field.1) :
    ReadsAs (writeField field).toList [.ofField field] := by
  obtain ⟨c,cs,hname,hc⟩ := h.exists_eq_cons
  have htext : (writeField field).toList = c :: (cs ++ " = ".toList ++ field.2.write.toList ++ ['\n']) := by
    simp [writeField,String.toList_append,hname]
  have hreturn : '\r' ∉ (writeField field).toList := by
    simp [writeField,String.toList_append,h.return_not_mem,field.2.return_not_mem_write]
  have hread := line_field h
  rw [htext] at hread hreturn ⊢
  exact .oneLine hread (Or.inl hc) hreturn

theorem readsAs_fields {fields : List (String × Datum)} (h : ∀ field ∈ fields, IsName field.1) :
    ReadsAs (writeFields fields).toList (fields.map .ofField) := by
  have hread : ReadsAs (fields.flatMap fun field => (writeField field).toList) (fields.flatMap fun field => [.ofField field]) :=
    .flatMap fun field hfield => readsAs_field (h field hfield)
  rw [← List.map_eq_flatMap] at hread
  simpa [writeFields,String.toList_join,List.flatMap_map] using hread

/-- The lines of a table under a doubled header. -/
def elementLines (element : String × List (String × Datum)) : List Line :=
  .element [element.1] :: element.2.map .ofField

theorem readsAs_element {name : String} {fields : List (String × Datum)} (hname : IsName name)
    (hfields : ∀ field ∈ fields, IsName field.1) :
    ReadsAs (writeElement name fields).toList (elementLines (name,fields)) := by
  have htext : (writeElement name fields).toList =
      ('[' :: '[' :: (name.toList ++ [']',']','\n'])) ++ (writeFields fields).toList := by
    simp [writeElement,String.toList_append]
  have hheader : ReadsAs ('[' :: '[' :: (name.toList ++ [']',']','\n'])) [.element [name]] := by
    refine .oneLine (fun rest => ?_) (Or.inr rfl) ?_
    · simpa using line_header hname rest
    · simp [hname.return_not_mem]
  rw [htext]
  exact hheader.append (readsAs_fields hfields)

/-- The lines of a document. -/
def documentLines (root : List (String × Datum)) (elements : List (String × List (String × Datum))) : List Line :=
  root.map .ofField ++ elements.flatMap elementLines

/-- The parts of a document with an empty line between each two, and the lines of each. -/
def documentParts (root : List (String × Datum)) (elements : List (String × List (String × Datum))) :
    List (List Char × List Line) :=
  (if root.isEmpty then [] else [((writeFields root).toList,root.map .ofField)]) ++
    elements.map fun element => ((writeElement element.1 element.2).toList,elementLines element)

/-- The names of fields can be written without quotes, and none occurs twice. -/
structure AreFields (fields : List (String × Datum)) : Prop where
  isName : ∀ field ∈ fields, IsName field.1
  nodup : (fields.map Prod.fst).Nodup

/-- The headers of the tables can be written without quotes, and none is the name of a field of the root. -/
structure IsDocument (root : List (String × Datum)) (elements : List (String × List (String × Datum))) : Prop where
  rootFields : AreFields root
  isName : ∀ element ∈ elements, IsName element.1
  not_mem_root : ∀ element ∈ elements, element.1 ∉ root.map Prod.fst
  elementFields : ∀ element ∈ elements, AreFields element.2

section Documents

variable {root : List (String × Datum)} {elements : List (String × List (String × Datum))}

theorem readsAs_document (h : IsDocument root elements) :
    ReadsAs (writeDocument root elements).toList (documentLines root elements) := by
  have htext : (writeDocument root elements).toList =
      ['\n'].intercalate ((documentParts root elements).map Prod.fst) := by
    simp only [writeDocument,String.toList_intercalate,documentParts]
    split <;> simp [Function.comp_def]
  have hlines : documentLines root elements = (documentParts root elements).flatMap Prod.snd := by
    cases root <;> simp [documentLines,documentParts,List.flatMap_map]
  rw [htext,hlines]
  apply ReadsAs.intercalate
  intro part hpart
  rcases List.mem_append.mp hpart with hpart | hpart
  · obtain rfl : part = ((writeFields root).toList,root.map .ofField) := by
      split at hpart <;> simp_all
    exact readsAs_fields h.rootFields.isName
  · obtain ⟨element,hmem,rfl⟩ := List.mem_map.mp hpart
    exact readsAs_element (h.isName element hmem) (h.elementFields element hmem).isName

/-- A field as a key and its value. -/
def Datum.pair (field : String × Datum) : List String × Value := ([field.1],field.2.value)

theorem sections_fields (fields : List (String × Datum)) (ls : List Line) :
    sections (fields.map .ofField ++ ls) = (fields.map Datum.pair ++ (sections ls).1,(sections ls).2) := by
  induction fields with
  | nil => rfl
  | cons field fields ih =>
    rw [List.map_cons,List.cons_append,Line.ofField,sections,ih]
    rfl

/-- A written table as a header with the keys under it. -/
def Section.ofElement (element : String × List (String × Datum)) : Section :=
  ⟨true,[element.1],element.2.map Datum.pair⟩

/-- The fields of the root come first, and each table is a section of its own. -/
theorem sections_document (root : List (String × Datum)) (elements : List (String × List (String × Datum))) :
    sections (documentLines root elements) = (root.map Datum.pair,elements.map .ofElement) := by
  have helements : sections (elements.flatMap elementLines) = ([],elements.map .ofElement) := by
    induction elements with
    | nil => rfl
    | cons element elements ih =>
      rw [List.flatMap_cons,elementLines,List.cons_append,sections,sections_fields,ih,List.append_nil]
      rfl
  rw [documentLines,sections_fields,helements,List.append_nil]

namespace Table

theorem set_of_lookup_eq_none {name : String} {t : Table} (h : t.lookup name = none) (v : Value) :
    set name v t = t ++ [(name,v)] := by
  induction t with
  | nil => rfl
  | cons entry t ih =>
    obtain ⟨key,old⟩ := entry
    rw [lookup_cons_if] at h
    split at h
    · contradiction
    · next hne => rw [set,if_neg (Ne.symm hne),ih h,List.cons_append]

/-- Fields whose names are new and distinct are added in order. -/
theorem addAll_fields {fields : List (String × Datum)} (hnodup : (fields.map Prod.fst).Nodup) {t : Table}
    (hfresh : ∀ field ∈ fields, t.lookup field.1 = none) :
    addAll (fields.map Datum.pair) t = some (t ++ ofFields fields) := by
  induction fields generalizing t with
  | nil => simp [addAll,ofFields]
  | cons field fields ih =>
    obtain ⟨name,d⟩ := field
    rw [List.forall_mem_cons] at hfresh
    rw [List.map_cons,List.nodup_cons] at hnodup
    have hadd : add d.value [name] t = some (t ++ [(name,d.value)]) := by
      rw [add,hfresh.1,← set_of_lookup_eq_none hfresh.1]
    have hrest : ∀ field ∈ fields, (t ++ [(name,d.value)]).lookup field.1 = none := by
      intro field hfield
      have hne : field.1 ≠ name := by
        rintro rfl
        exact hnodup.1 (List.mem_map.mpr ⟨field,hfield,rfl⟩)
      rw [List.lookup_append,hfresh.2 field hfield,lookup_cons_if,if_neg hne]
      rfl
    have hfields := ih hnodup.2 hrest
    simp only [addAll,List.map_cons,List.foldlM_cons,Datum.pair] at hfields ⊢
    rw [hadd]
    simpa [ofFields] using hfields

/-- The tables that are written under a header. -/
def under (header : String) (elements : List (String × List (String × Datum))) : List Table :=
  elements.filterMap fun (name,fields) => if name = header then some (ofFields fields) else none

/-- The value that a document gives to a name: that of a field of the root, or the tables under the name as a header. -/
def written? (root : List (String × Datum)) (elements : List (String × List (String × Datum))) (name : String) :
    Option Value :=
  match (ofFields root).lookup name with
  | some v => some v
  | none => if (under name elements).isEmpty then none else some (.tables (under name elements))

theorem lookup_ofFields_eq_none {fields : List (String × Datum)} {name : String} (h : name ∉ fields.map Prod.fst) :
    (ofFields fields).lookup name = none := by
  rw [List.lookup_eq_none_iff]
  rintro entry hentry
  obtain ⟨field,hfield,rfl⟩ := List.mem_map.mp hentry
  have hne : name ≠ field.1 := by
    rintro rfl
    exact h (List.mem_map.mpr ⟨field,hfield,rfl⟩)
  simpa using hne

theorem under_append (header : String) (first second : List (String × List (String × Datum))) :
    under header (first ++ second) = under header first ++ under header second := List.filterMap_append

/-- Tables that are written under one name are found under that name and under no other. -/
theorem under_map {α : Type} (header name : String) (toFields : α → List (String × Datum)) (as : List α) :
    under header (as.map fun a => (name,toFields a)) =
      if name = header then as.map fun a => ofFields (toFields a) else [] := by
  rw [under,List.filterMap_map]
  split
  case isTrue h =>
    rw [← List.filterMap_eq_map]
    congr 1
    funext a
    simp [h]
  case isFalse h => simp [h]

theorem under_concat (header name : String) (elements : List (String × List (String × Datum)))
    (fields : List (String × Datum)) : under header (elements ++ [(name,fields)]) =
      if name = header then under header elements ++ [ofFields fields] else under header elements := by
  rw [under_append]
  split <;> simp_all [under]

/-- A written table is added after the tables with the same header, and every other name keeps its value. -/
theorem addSection_written {t : Table} (h : ∀ k, t.lookup k = written? root elements k) {name : String}
    (hname : name ∉ root.map Prod.fst) {fields : List (String × Datum)} (hnodup : (fields.map Prod.fst).Nodup) :
    ∃ t', addSection t (.ofElement (name,fields)) = some t' ∧
      ∀ k, t'.lookup k = written? root (elements ++ [(name,fields)]) k := by
  have hroot := lookup_ofFields_eq_none hname
  have hfields := addAll_fields hnodup (t := []) fun _ _ => rfl
  have hold : t.lookup name = if (under name elements).isEmpty then none else some (.tables (under name elements)) := by
    rw [h name,written?,hroot]
  refine ⟨set name (.tables (under name elements ++ [ofFields fields])) t,?_,?_⟩
  · simp only [addSection,Section.ofElement,addElement,changeBelow,if_true]
    rw [hold,hfields]
    cases under name elements <;> rfl
  · intro k
    rw [lookup_set,h k,written?,written?,under_concat]
    by_cases hk : k = name
    · subst k
      simp [hroot]
    · rw [if_neg hk,if_neg (Ne.symm hk)]

theorem addSections_written (written : List (String × List (String × Datum))) {t : Table}
    (h : ∀ k, t.lookup k = written? root elements k) (hname : ∀ element ∈ written, element.1 ∉ root.map Prod.fst)
    (hfields : ∀ element ∈ written, AreFields element.2) :
    ∃ t', (written.map Section.ofElement).foldlM addSection t = some t' ∧
      ∀ k, t'.lookup k = written? root (elements ++ written) k := by
  -- The invariant is that the table holds what the root and the tables added so far, `elements`, have written.
  induction written generalizing t elements with
  | nil => exact ⟨t,rfl,by simpa using h⟩
  | cons element written ih =>
    obtain ⟨name,fields⟩ := element
    rw [List.forall_mem_cons] at hname hfields
    obtain ⟨t₁,hadd,h₁⟩ := addSection_written h hname.1 hfields.1.nodup
    obtain ⟨t₂,hrest,h₂⟩ := ih h₁ hname.2 hfields.2
    refine ⟨t₂,?_,?_⟩
    · rw [List.map_cons,List.foldlM_cons,hadd]
      exact hrest
    · rwa [List.append_assoc] at h₂

/-- A written document is read back: each name has the value that it was written with. -/
theorem ofText?_document (h : IsDocument root elements) :
    ∃ t, ofText? (writeDocument root elements) = some t ∧ ∀ name, t.lookup name = written? root elements name := by
  have hroot := addAll_fields h.rootFields.nodup (t := []) fun _ _ => rfl
  have hstart : ∀ k, (ofFields root).lookup k = written? root [] k := by
    intro k
    rw [written?]
    cases (ofFields root).lookup k <;> rfl
  obtain ⟨t,hadd,ht⟩ := addSections_written elements hstart h.not_mem_root h.elementFields
  refine ⟨t,?_,ht⟩
  rw [(readsAs_document h).ofText?,ofLines,sections_document,hroot]
  exact hadd

end Table

end Documents

end ListScript.Toml
