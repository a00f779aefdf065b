import ListScript.Proofs.QuotedText
import ListScript.Toml.Line

/-!
# Written lines are read back

A field takes up one line, of its name and its value, and so does the header of a table. Each is read up to the line break
that ends it. An array is read item by item, and the text of each item up to the comma or the bracket after it.
-/
namespace ListScript.Toml

/-! ## Names -/

/-- A name that can be written without quotes. -/
def IsName (name : String) : Prop := name.toList ≠ [] ∧ ∀ c ∈ name.toList, isBare c = true

theorem ne_of_isBare {c d : Char} (hc : isBare c = true) (hd : isBare d = false) : c ≠ d := by
  rintro rfl
  rw [hd] at hc
  contradiction

theorem IsName.exists_eq_cons {name : String} (h : IsName name) :
    ∃ c cs, name.toList = c :: cs ∧ isBare c = true := by
  cases hname : name.toList with
  | nil => exact absurd hname h.1
  | cons c cs => exact ⟨c,cs,rfl,h.2 c (by rw [hname]; exact List.mem_cons_self)⟩

theorem IsName.return_not_mem {name : String} (h : IsName name) : '\r' ∉ name.toList :=
  fun hmem => absurd (h.2 _ hmem) (by decide)

theorem skipBlanks_cons {c : Char} (h : isBlank c = false) (cs : List Char) : skipBlanks (c :: cs) = c :: cs := by
  rw [skipBlanks,List.dropWhile_cons_of_neg (by simp [h])]

theorem isBlank_of_isBare {c : Char} (h : isBare c = true) : isBlank c = false := by
  have hspace := ne_of_isBare h (d := ' ') rfl
  have htab := ne_of_isBare h (d := '\t') rfl
  simp [isBlank,hspace,htab]

theorem keyPart_name {name : String} (h : IsName name) {c : Char} (hc : isBare c = false) (rest : List Char) :
    keyPart (name.toList ++ c :: rest) = some (name,c :: rest) := by
  obtain ⟨d,ds,hname,hd⟩ := h.exists_eq_cons
  have htake : (name.toList ++ c :: rest).takeWhile isBare = name.toList := by
    rw [List.takeWhile_append_of_pos h.2,List.takeWhile_cons_of_neg (by simp [hc]),List.append_nil]
  have hdrop : (name.toList ++ c :: rest).dropWhile isBare = c :: rest := by
    rw [List.dropWhile_append_of_pos h.2,List.dropWhile_cons_of_neg (by simp [hc])]
  unfold keyPart
  split
  · next heq =>
    rw [hname] at heq
    exact absurd (List.cons.inj heq).1 (ne_of_isBare hd rfl)
  · next heq =>
    rw [hname] at heq
    exact absurd (List.cons.inj heq).1 (ne_of_isBare hd rfl)
  · simp only [htake,hdrop,String.ofList_toList,List.isEmpty_iff,if_neg h.1]

/-- A name is read as a key of one part, up to the character that ends it and the blanks after it. -/
theorem key_name {name : String} (h : IsName name) {c d : Char} {cs rest : List Char} (hc : isBare c = false)
    (hskip : skipBlanks (c :: cs) = d :: rest) (hd : d ≠ '.') :
    key maxDepth (name.toList ++ c :: cs) = some ([name],d :: rest) := by
  obtain ⟨e,es,hname,he⟩ := h.exists_eq_cons
  have hfront : skipBlanks (name.toList ++ c :: cs) = name.toList ++ c :: cs := by
    rw [hname,List.cons_append,skipBlanks_cons (isBlank_of_isBare he)]
  rw [maxDepth,key,hfront,keyPart_name h hc]
  simp only [Option.bind_eq_bind,Option.bind_some,hskip]
  split
  · next heq => exact absurd (List.cons.inj heq).1 hd
  · rfl

/-! ## Values -/

/-- A written text is read as a value at every depth. -/
theorem value_write (depth : Nat) (s : String) {rest : List Char} (hrest : ∀ c ∈ rest.head?, c ≠ '"' ∧ c ≠ '\'') :
    value depth ((Quoted.write s).toList ++ rest) = some (.string s,rest) := by
  have hread := Quoted.text_write s hrest
  obtain ⟨mark,cs,hs,hmark⟩ := Quoted.exists_write_eq_cons s
  rw [hs,List.cons_append] at hread ⊢
  rcases hmark with rfl | rfl <;> cases depth <;> simp [value,scalar,hread]

theorem skipGap_cons {c : Char} (hbreak : c ≠ '\n') (hblank : isBlank c = false) (hcomment : c ≠ '#')
    (cs : List Char) : skipGap false (c :: cs) = c :: cs := by
  simp [skipGap,hbreak,hblank,hcomment]

/-- The items of a written array, with their commas. -/
def writeItems (ss : List String) : List Char := [',',' '].intercalate (ss.map fun s => (Quoted.write s).toList)

theorem writeItems_cons_cons (s t : String) (ss : List String) :
    writeItems (s :: t :: ss) = (Quoted.write s).toList ++ ',' :: ' ' :: writeItems (t :: ss) := by
  simp [writeItems,List.intercalate_cons_cons]

theorem length_le_writeItems (ss : List String) : ss.length ≤ (writeItems ss).length := by
  induction ss with
  | nil => simp
  | cons s ss ih =>
    obtain ⟨mark,cs,hs,-⟩ := Quoted.exists_write_eq_cons s
    cases ss with
    | nil => simp [writeItems,hs]
    | cons t ss =>
      rw [writeItems_cons_cons,List.length_append,List.length_cons,List.length_cons,hs]
      simp only [List.length_cons] at ih ⊢
      omega

section Items

variable {item : Text.Reader Value} {v : Value} {rest : List Char}

/-- An array goes on after the comma, or ends with the bracket, that follows a text. -/
theorem arrayItems_write (s : String) (bound : Nat) {c : Char} (hc : c = ',' ∨ c = ']')
    (h : item ((Quoted.write s).toList ++ c :: rest) = some (v,c :: rest)) :
    arrayItems item (bound + 1) ((Quoted.write s).toList ++ c :: rest) =
      if c = ',' then (arrayItems item bound rest).map fun (vs,rest) => (v :: vs,rest) else some ([v],rest) := by
  obtain ⟨mark,cs,hs,hmark⟩ := Quoted.exists_write_eq_cons s
  rw [hs,List.cons_append] at h ⊢
  have hfront : skipGap false (mark :: (cs ++ c :: rest)) = mark :: (cs ++ c :: rest) := by
    rcases hmark with rfl | rfl <;> exact skipGap_cons (by decide) rfl (by decide) _
  have hback : skipGap false (c :: rest) = c :: rest := by
    rcases hc with rfl | rfl <;> exact skipGap_cons (by decide) rfl (by decide) _
  have hopen : mark ≠ ']' := by rcases hmark with rfl | rfl <;> decide
  rw [arrayItems,hfront]
  split
  · next heq => exact absurd (List.cons.inj heq).1 hopen
  · rw [h]
    simp only [Option.bind_eq_bind,Option.bind_some,hback]
    rcases hc with rfl | rfl
    · simp only [if_true]
      cases arrayItems item bound rest <;> rfl
    · rfl

theorem arrayItems_blank (bound : Nat) (cs : List Char) : arrayItems item bound (' ' :: cs) = arrayItems item bound cs := by
  cases bound with
  | zero => rfl
  | succ bound => rfl

end Items

/-- The items of a written array are read up to its bracket. -/
theorem arrayItems_writeItems (depth : Nat) (ss : List String) {bound : Nat} (hbound : ss.length < bound)
    (rest : List Char) :
    arrayItems (value depth) bound (writeItems ss ++ ']' :: rest) = some (ss.map .string,rest) := by
  induction ss generalizing bound with
  | nil =>
    cases bound with
    | zero => contradiction
    | succ bound => rfl
  | cons s ss ih =>
    cases bound with
    | zero => contradiction
    | succ bound =>
      cases ss with
      | nil =>
        have hread : value depth ((Quoted.write s).toList ++ ']' :: rest) = some (.string s,']' :: rest) :=
          value_write depth s (by simp)
        simpa [writeItems] using arrayItems_write s bound (Or.inr rfl) hread
      | cons t ss =>
        -- The blank after the comma is passed over in front of the next item.
        have hitems := ih (Nat.lt_of_succ_lt_succ hbound)
        rw [writeItems_cons_cons,List.append_assoc,List.cons_append,List.cons_append,
          arrayItems_write s bound (Or.inl rfl) (value_write depth s (by simp)),if_pos rfl,arrayItems_blank,hitems]
        rfl

theorem value_bracket (depth : Nat) (cs : List Char) : value (depth + 1) ('[' :: cs) =
    (arrayItems (value depth) cs.length cs).map fun (vs,rest) => (.array vs,rest) := rfl

/-- Every written value is read back up to the end of its line. -/
theorem value_datum (d : Datum) (rest : List Char) :
    value maxDepth (d.write.toList ++ '\n' :: rest) = some (d.value,'\n' :: rest) := by
  cases d with
  | text s => exact value_write maxDepth s (by simp)
  | flag b => cases b <;> rfl
  | texts ss =>
    have htext : (Datum.texts ss).write.toList ++ '\n' :: rest = '[' :: (writeItems ss ++ ']' :: '\n' :: rest) := by
      simp [Datum.write,writeItems,String.toList_append,String.toList_intercalate,Function.comp_def]
    have hbound : ss.length < (writeItems ss ++ ']' :: '\n' :: rest).length := by
      have := length_le_writeItems ss
      rw [List.length_append,List.length_cons]
      omega
    rw [htext,maxDepth,value_bracket,arrayItems_writeItems _ ss hbound]
    rfl

theorem Datum.return_not_mem_write (d : Datum) : '\r' ∉ d.write.toList := by
  cases d with
  | text s => exact Quoted.return_not_mem_write s
  | flag b => cases b <;> decide
  | texts ss =>
    have hitems : '\r' ∉ writeItems ss := by
      induction ss with
      | nil => simp [writeItems]
      | cons s ss ih =>
        cases ss with
        | nil => simpa [writeItems] using Quoted.return_not_mem_write s
        | cons t ss =>
          rw [writeItems_cons_cons]
          simpa [Quoted.return_not_mem_write s] using ih
    simpa [Datum.write,writeItems,String.toList_append,String.toList_intercalate,Function.comp_def] using hitems

/-! ## Lines -/

def Line.ofField (field : String × Datum) : Line := .pair [field.1] field.2.value

theorem skipBlanks_datum (d : Datum) (cs : List Char) : skipBlanks (d.write.toList ++ cs) = d.write.toList ++ cs := by
  cases d with
  | text s =>
    obtain ⟨mark,cs',hs,hmark⟩ := Quoted.exists_write_eq_cons s
    rw [Datum.write,hs,List.cons_append,skipBlanks_cons (by rcases hmark with rfl | rfl <;> rfl)]
  | flag b => cases b <;> rfl
  | texts ss =>
    simp [Datum.write,String.toList_append,skipBlanks_cons,isBlank]

/-- A written field is read as a line. -/
theorem line_field {field : String × Datum} (h : IsName field.1) (rest : List Char) :
    line ((writeField field).toList ++ rest) = some (.ofField field,rest) := by
  obtain ⟨name,d⟩ := field
  have htext : (writeField (name,d)).toList ++ rest =
      name.toList ++ ' ' :: ('=' :: ' ' :: (d.write.toList ++ '\n' :: rest)) := by
    simp [writeField,String.toList_append]
  have hkey : key maxDepth (name.toList ++ ' ' :: ('=' :: ' ' :: (d.write.toList ++ '\n' :: rest))) =
      some ([name],'=' :: ' ' :: (d.write.toList ++ '\n' :: rest)) := key_name h rfl rfl (by decide)
  have hskip : skipBlanks (' ' :: (d.write.toList ++ '\n' :: rest)) = d.write.toList ++ '\n' :: rest :=
    skipBlanks_datum d ('\n' :: rest)
  have hpair : pair (value maxDepth) (name.toList ++ ' ' :: ('=' :: ' ' :: (d.write.toList ++ '\n' :: rest))) =
      some (([name],d.value),'\n' :: rest) := by
    rw [pair,hkey]
    simp only [Option.bind_eq_bind,Option.bind_some,hskip,value_datum]
    rfl
  obtain ⟨c,cs,hname,hc⟩ := h.exists_eq_cons
  rw [htext]
  unfold line
  split
  · next heq =>
    rw [hname] at heq
    exact absurd (List.cons.inj heq).1 (ne_of_isBare hc rfl)
  · next heq =>
    rw [hname] at heq
    exact absurd (List.cons.inj heq).1 (ne_of_isBare hc rfl)
  · rw [hpair]
    rfl

/-- A written doubled header is read as a line. -/
theorem line_header {name : String} (h : IsName name) (rest : List Char) :
    line ('[' :: '[' :: (name.toList ++ ']' :: ']' :: '\n' :: rest)) = some (.element [name],rest) := by
  have hkey : key maxDepth (name.toList ++ ']' :: ']' :: '\n' :: rest) = some ([name],']' :: ']' :: '\n' :: rest) :=
    key_name h rfl rfl (by decide)
  rw [line,hkey]
  rfl

end ListScript.Toml
