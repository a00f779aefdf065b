import ListScript.Proofs.Grammar
import ListScript.Value.Json

/-!
# Values read back from JSON

What is written for an item can be read from the front of a text, up to the comma or the bracket after it. Hence an array
is read back item by item, an array of values in the same way as the lists inside of it.
-/
namespace ListScript

/-! ## Items of an array -/

namespace Text

/-- What may stand after an item of an array. -/
def IsStop (c : Char) : Prop := c = ',' ∨ c = ']'

/-- A reader takes exactly what is written for an item when a comma or a closing bracket follows. What is written does not
begin like a blank or the end of an array. -/
structure Reads {α : Type} (item : Reader α) (write : α → List Char) : Prop where
  read : ∀ a stop rest, IsStop stop → item (write a ++ stop :: rest) = some (a,stop :: rest)
  first : ∀ a, ∃ c cs, write a = c :: cs ∧ Value.OfJson.isBlank c = false ∧ c ≠ ']'

end Text

namespace Value.OfJson

open Text Token

theorem skipBlanks_cons {c : Char} (h : isBlank c = false) (cs : List Char) : skipBlanks (c :: cs) = c :: cs := by
  rw [skipBlanks,List.dropWhile_cons_of_neg (by simp [h])]

theorem isBlank_of_isStop {c : Char} (h : IsStop c) : isBlank c = false := by
  rcases h with rfl | rfl <;> decide

variable {α : Type} {item : Reader α} {write : α → List Char}

theorem skipBlanks_write (h : Reads item write) (a : α) (rest : List Char) :
    skipBlanks (write a ++ rest) = write a ++ rest := by
  obtain ⟨c,cs,hc,hblank,-⟩ := h.first a
  rw [hc,List.cons_append,skipBlanks_cons hblank]

/-- An item may stand between blanks, and reads the same without any. -/
theorem padded_read (h : Reads item write) (a : α) {stop : Char} (hstop : IsStop stop) (rest : List Char) :
    padded item (write a ++ stop :: rest) = some (a,stop :: rest) := by
  rw [padded,skipBlanks_write h,h.read a stop rest hstop]
  simp [skipBlanks_cons (isBlank_of_isStop hstop)]

/-- Items with commas in between are read up to the bracket after them, if the bound admits that many. -/
theorem itemsUntil_written (h : Reads item write) {as : List α} (hne : as ≠ []) (bound : Nat)
    (hbound : as.length ≤ bound) (rest : List Char) :
    itemsUntil ']' (padded item) bound (joinGroups ',' (as.map write) ++ ']' :: rest) = some (as,rest) := by
  induction as generalizing bound with
  | nil => contradiction
  | cons a as ih =>
    cases bound with
    | zero => simp at hbound
    | succ bound =>
      cases as with
      | nil =>
        have hread := padded_read h a (Or.inr rfl) rest
        simpa [joinGroups] using itemsUntil_close hread
      | cons b as =>
        have hrest := ih (by simp) bound (Nat.le_of_succ_le_succ hbound)
        have hread := padded_read h a (Or.inl rfl) (joinGroups ',' ((b :: as).map write) ++ ']' :: rest)
        rw [List.map_cons,List.map_cons,joinGroups_cons_cons,List.append_assoc,List.cons_append,← List.map_cons,
          itemsUntil_comma (by decide) hread,hrest]
        rfl

/-- Each item takes up a character, so a text is at least as long as the array that is written in it. -/
theorem length_le_joinGroups (h : Reads item write) (as : List α) :
    as.length ≤ (joinGroups ',' (as.map write)).length := by
  induction as with
  | nil => simp
  | cons a as ih =>
    obtain ⟨c,cs,hc,-,-⟩ := h.first a
    cases as with
    | nil => simp [joinGroups,hc]
    | cons b as =>
      rw [List.map_cons,List.map_cons,joinGroups_cons_cons,← List.map_cons,List.length_append,hc]
      simp only [List.length_cons] at ih ⊢
      omega

/-- An array is read back from what is written for its items. -/
theorem items_written (h : Reads item write) (as : List α) (rest : List Char) :
    items item (joinGroups ',' (as.map write) ++ ']' :: rest) = some (as,rest) := by
  cases as with
  | nil =>
    have hend : skipBlanks (']' :: rest) = ']' :: rest := skipBlanks_cons (by decide) rest
    simp [items,joinGroups,hend]
  | cons a as =>
    have hlen := length_le_joinGroups h (a :: as)
    have hread := itemsUntil_written h (List.cons_ne_nil a as)
      (joinGroups ',' ((a :: as).map write) ++ ']' :: rest).length (by rw [List.length_append]; omega) rest
    -- The text begins with the first item, hence neither with a blank nor with the closing bracket.
    obtain ⟨c,cs,hc,hblank,hclose⟩ := h.first a
    obtain ⟨cs',hcs⟩ : ∃ cs', joinGroups ',' ((a :: as).map write) ++ ']' :: rest = c :: cs' := by
      cases as with
      | nil => exact ⟨_,by rw [List.map_cons,List.map_nil,joinGroups,List.intercalate_singleton,hc]; rfl⟩
      | cons b as => exact ⟨_,by rw [List.map_cons,List.map_cons,joinGroups_cons_cons,hc]; rfl⟩
    rw [hcs] at hread ⊢
    rw [items,skipBlanks_cons hblank]
    split
    · rename_i heq
      exact absurd (List.cons.inj heq).1 hclose
    · exact hread

/-! ## Integers -/

/-- The digits at the front of a text end where a character is none. -/
theorem takeWhile_digits (ds : List Char) (hds : ∀ d ∈ ds, d.isDigit = true) {c : Char} (hc : c.isDigit = false)
    (rest : List Char) : (ds ++ c :: rest).takeWhile Char.isDigit = ds ∧
      (ds ++ c :: rest).dropWhile Char.isDigit = c :: rest := by
  rw [List.takeWhile_append_of_pos hds,List.dropWhile_append_of_pos hds,
    List.takeWhile_cons_of_neg (by simp [hc]),List.dropWhile_cons_of_neg (by simp [hc]),List.append_nil]
  exact ⟨rfl,rfl⟩

theorem isDigit_of_isStop {c : Char} (h : IsStop c) : c.isDigit = false := by
  rcases h with rfl | rfl <;> decide

/-- The digits of an integer are read as that integer, with the sign that stood before them. -/
theorem ofDigits_digits (k : Int64) {stop : Char} (hstop : IsStop stop) (rest : List Char) :
    ofDigits (decide (k.toInt < 0)) (Decimal.digits k.toInt.natAbs ++ stop :: rest) = some (k,stop :: rest) := by
  obtain ⟨htake,hdrop⟩ := takeWhile_digits (Decimal.digits k.toInt.natAbs)
    (fun d hd => Decimal.isDigit_of_mem_digits hd) (isDigit_of_isStop hstop) rest
  have hcanonical : Decimal.canonical? (Decimal.digits k.toInt.natAbs) = some k.toInt.natAbs :=
    Decimal.canonical?_eq_some_iff.mpr rfl
  have hsign : (if decide (k.toInt < 0) then -(k.toInt.natAbs : Int) else k.toInt.natAbs) = k.toInt := by
    simp only [decide_eq_true_eq]
    split <;> omega
  have hzero : (decide (k.toInt < 0) && k.toInt.natAbs == 0) = false := by
    rw [Bool.and_eq_false_iff,decide_eq_false_iff_not,beq_eq_false_iff_ne]
    omega
  rw [ofDigits,htake,hdrop,hcanonical]
  simp only [Option.bind_eq_bind,Option.bind_some,hzero,hsign,exactInt64?_toInt]
  rfl

/-- The digits of a number do not begin with a minus sign. -/
theorem integer_digits (n : Nat) (rest : List Char) :
    integer (Decimal.digits n ++ rest) = ofDigits false (Decimal.digits n ++ rest) := by
  obtain ⟨d,ds,hds,hd⟩ := Decimal.exists_digits_eq_cons n
  rw [hds,List.cons_append,integer]
  rintro cs hcs
  obtain rfl := (List.cons.inj hcs).1
  exact absurd hd (by decide)

def writeInteger (k : Int64) : List Char := (Decimal.ofInt k.toInt).toList

/-- An integer begins with a minus sign or with a digit. -/
theorem writeInteger_eq_cons (k : Int64) : ∃ c cs, writeInteger k = c :: cs ∧ (c = '-' ∨ c.isDigit = true) := by
  rw [writeInteger,Decimal.toList_ofInt]
  by_cases hneg : k.toInt < 0
  · rw [if_pos hneg]
    exact ⟨_,_,rfl,Or.inl rfl⟩
  · rw [if_neg hneg]
    obtain ⟨d,ds,hds,hd⟩ := Decimal.exists_digits_eq_cons k.toInt.natAbs
    exact ⟨d,ds,hds,Or.inr hd⟩

theorem isBlank_of_isDigit {c : Char} (h : c.isDigit = true) : isBlank c = false := by
  simp only [isBlank,Bool.or_eq_false_iff,beq_eq_false_iff_ne]
  refine ⟨⟨⟨?_,?_⟩,?_⟩,?_⟩ <;> rintro rfl <;> exact absurd h (by decide)

theorem reads_integer : Reads integer writeInteger where
  read k stop rest hstop := by
    have h := ofDigits_digits k hstop rest
    rw [writeInteger,Decimal.toList_ofInt]
    by_cases hneg : k.toInt < 0
    · rw [if_pos hneg,List.cons_append,integer]
      simpa [hneg] using h
    · rw [if_neg hneg,integer_digits]
      simpa [hneg] using h
  first k := by
    obtain ⟨c,cs,hk,hc⟩ := writeInteger_eq_cons k
    refine ⟨c,cs,hk,?_⟩
    rcases hc with rfl | hc
    · exact ⟨by decide,by decide⟩
    · refine ⟨isBlank_of_isDigit hc,?_⟩
      rintro rfl
      exact absurd hc (by decide)

/-! ## Values -/

/-- The compact text of an array. -/
theorem toList_compact_array (js : List Json) : (Json.array js).compact.toList =
    '[' :: joinGroups ',' (js.map fun j => j.compact.toList) ++ [']'] := by
  rw [Json.compact,Json.bracketed,Json.compactItems_eq,String.toList_append,String.toList_append,
    String.toList_intercalate,List.map_map]
  rfl

def writeValue (v : Value) : List Char := v.toJson.compact.toList

theorem writeValue_int (k : Int64) : writeValue (.int k) = writeInteger k := by
  rw [writeValue,toJson,Json.compact,writeInteger]

theorem writeValue_list (ks : List Int64) :
    writeValue (.list ks) = '[' :: joinGroups ',' (ks.map writeInteger) ++ [']'] := by
  rw [writeValue,toJson,toList_compact_array,List.map_map]
  rfl

theorem value_of_ne {c : Char} (h : c ≠ '[') (cs : List Char) :
    value (c :: cs) = (integer (c :: cs)).map fun (n,rest) => (.int n,rest) := by
  rw [value]
  intro cs' hcs
  exact h (List.cons.inj hcs).1

theorem reads_value : Reads value writeValue where
  read v stop rest hstop := by
    cases v with
    | int k =>
      have h := reads_integer.read k stop rest hstop
      obtain ⟨c,cs,hk,hc⟩ := writeInteger_eq_cons k
      have hne : c ≠ '[' := by
        rintro rfl
        exact absurd hc (by decide)
      rw [hk,List.cons_append] at h
      rw [writeValue_int,hk,List.cons_append,value_of_ne hne,h]
      rfl
    | list ks =>
      have h := items_written reads_integer ks (stop :: rest)
      rw [writeValue_list,List.append_assoc]
      change value ('[' :: (joinGroups ',' (ks.map writeInteger) ++ ']' :: stop :: rest)) = _
      rw [value,h]
      rfl
  first v := by
    cases v with
    | int k =>
      rw [writeValue_int]
      exact reads_integer.first k
    | list ks =>
      rw [writeValue_list]
      exact ⟨_,_,rfl,by decide,by decide⟩

end Value.OfJson

namespace Value

/-- A list of values is read back from its JSON, also when blanks follow. -/
theorem listOfJson?_compact_append (values : List Value) (rest : String)
    (hrest : OfJson.skipBlanks rest.toList = []) :
    listOfJson? ((listToJson values).compact ++ rest) = some values := by
  have hitems := OfJson.items_written OfJson.reads_value values rest.toList
  have htext : ((listToJson values).compact ++ rest).toList =
      '[' :: (Token.joinGroups ',' (values.map OfJson.writeValue) ++ ']' :: rest.toList) := by
    rw [String.toList_append,listToJson,OfJson.toList_compact_array,List.map_map,List.append_assoc]
    rfl
  rw [listOfJson?,htext,OfJson.skipBlanks_cons (by decide)]
  simp [hitems,hrest]

end Value
end ListScript
