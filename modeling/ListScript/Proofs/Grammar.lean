import Mathlib.Data.List.Forall2
import ListScript.Proofs.Reading
import ListScript.Proofs.Spelling
import ListScript.Proofs.Splitting
import ListScript.Value.Reading

/-!
# Grammar of values

An integer is an optional minus sign and digits, a list stands in brackets with its integers between commas. Reading a
value accepts exactly this grammar, which is wider than what values are written with: leading zeros are allowed, and
so is a minus sign before a zero.
-/
namespace ListScript
open Reading

namespace Decimal

theorem toNat?_eq_some_iff {cs : List Char} {n : Nat} : toNat? cs = some n ↔
    cs ≠ [] ∧ (∀ c ∈ cs, c.isDigit = true) ∧ Nat.ofDigitChars 10 cs 0 = n := by
  simp [toNat?,and_assoc]

theorem toNat?_minus (cs : List Char) : toNat? ('-' :: cs) = none := by
  simp [toNat?]

theorem toInt?_eq_some_iff {cs : List Char} {n : Int} : toInt? cs = some n ↔
    ∃ ds m, toNat? ds = some m ∧ (cs = ds ∧ n = m ∨ cs = '-' :: ds ∧ n = -(m : Int)) := by
  unfold toInt?
  split
  · rename_i ds
    rw [Option.map_eq_some_iff]
    constructor
    · rintro ⟨m,hm,rfl⟩
      exact ⟨ds,m,hm,Or.inr ⟨rfl,rfl⟩⟩
    · rintro ⟨ds',m,hm,⟨rfl,-⟩ | ⟨h,rfl⟩⟩
      · rw [toNat?_minus] at hm
        contradiction
      · obtain rfl := (List.cons.inj h).2
        exact ⟨m,hm,rfl⟩
  · rename_i hcs
    rw [Option.map_eq_some_iff]
    constructor
    · rintro ⟨m,hm,rfl⟩
      exact ⟨cs,m,hm,Or.inl ⟨rfl,rfl⟩⟩
    · rintro ⟨ds,m,hm,⟨rfl,rfl⟩ | ⟨h,-⟩⟩
      · exact ⟨m,hm,rfl⟩
      · exact absurd h (hcs ds)

/-- A number is written with its digits, after a minus sign if it is negative. -/
theorem toList_ofInt (n : Int) :
    (ofInt n).toList = if n < 0 then '-' :: digits n.natAbs else digits n.natAbs := by
  unfold ofInt
  split
  · simp
  · rw [toList_ofNat]

/-- A number is read back from its digits. -/
@[simp] theorem toInt?_ofInt (n : Int) : toInt? (ofInt n).toList = some n := by
  rw [toInt?_eq_some_iff,toList_ofInt]
  refine ⟨digits n.natAbs,n.natAbs,toNat?_digits _,?_⟩
  split
  · exact Or.inr ⟨rfl,by omega⟩
  · exact Or.inl ⟨rfl,by omega⟩

end Decimal

namespace Value

/-! ## Integers -/

/-- A token is a literal of a 64-bit integer: digits, with or without a minus sign in front, of that value. -/
inductive IsLiteral : String → Int64 → Prop
  | unsigned {ds : List Char} {n : Int64} (hne : ds ≠ []) (hds : ∀ c ∈ ds, c.isDigit = true)
      (hn : n.toInt = Nat.ofDigitChars 10 ds 0) : IsLiteral (String.ofList ds) n
  | negative {ds : List Char} {n : Int64} (hne : ds ≠ []) (hds : ∀ c ∈ ds, c.isDigit = true)
      (hn : n.toInt = -(Nat.ofDigitChars 10 ds 0 : Int)) : IsLiteral (String.ofList ('-' :: ds)) n

/-- A token is read as an integer exactly if it is a literal of that integer. -/
theorem integer?_eq_some_iff {t : String} {n : Int64} : integer? t = some n ↔ IsLiteral t n := by
  simp only [integer?,Option.bind_eq_bind,Option.bind_eq_some_iff,exactInt64?_eq_some_iff,
    Decimal.toInt?_eq_some_iff,Decimal.toNat?_eq_some_iff]
  constructor
  · rintro ⟨i,⟨ds,m,⟨hne,hds,rfl⟩,⟨ht,rfl⟩ | ⟨ht,rfl⟩⟩,hn⟩
    · rw [← String.ofList_toList (s := t),ht]
      exact .unsigned hne hds hn
    · rw [← String.ofList_toList (s := t),ht]
      exact .negative hne hds hn
  · rintro (⟨hne,hds,hn⟩ | ⟨hne,hds,hn⟩)
    · exact ⟨_,⟨_,_,⟨hne,hds,rfl⟩,Or.inl ⟨String.toList_ofList,rfl⟩⟩,hn⟩
    · exact ⟨_,⟨_,_,⟨hne,hds,rfl⟩,Or.inr ⟨String.toList_ofList,rfl⟩⟩,hn⟩

theorem integerOfToken_eq_ok_iff {t : String} {n : Int64} : integerOfToken t = .ok n ↔ IsLiteral t n := by
  rw [← integer?_eq_some_iff]
  unfold integerOfToken
  cases integer? t <;> simp

theorem isLiteral_integerToken (n : Int64) : IsLiteral (integerToken n) n := by
  rw [← integer?_eq_some_iff]
  simp [integer?,integerToken]

/-- A literal is a word. -/
theorem IsLiteral.isWord {t : String} {n : Int64} (h : IsLiteral t n) : Token.IsWord t := by
  cases h with
  | unsigned hne hds hn =>
    refine ⟨by simpa using hne,?_⟩
    intro c hc
    exact Token.isWordChar_of_isDigit (hds c (by simpa using hc))
  | negative hne hds hn =>
    refine ⟨by simp,?_⟩
    intro c hc
    rw [String.toList_ofList,List.mem_cons] at hc
    rcases hc with rfl | hc
    · decide
    · exact Token.isWordChar_of_isDigit (hds c hc)

/-- Literals are words. -/
theorem isWord_of_forall₂ {ts : List String} {ns : List Int64} (h : List.Forall₂ IsLiteral ts ns) :
    ∀ t ∈ ts, Token.IsWord t := by
  induction h with
  | nil => simp
  | cons ht _ ih => simpa using ⟨ht.isWord,ih⟩

/-! ## Values -/

/-- The tokens that a value may be written with: a literal, or literals in brackets with commas in between. -/
inductive IsSpelling : List String → Value → Prop
  | int {t : String} {n : Int64} (h : IsLiteral t n) : IsSpelling [t] (.int n)
  | list {ts : List String} {ns : List Int64} (h : List.Forall₂ IsLiteral ts ns) :
      IsSpelling (Token.listOpen :: Token.joinGroups Token.comma (ts.map fun t => [t]) ++ [Token.listClose])
        (.list ns)

theorem elementOfTokens_eq_ok_iff {element : List String} {n : Int64} :
    elementOfTokens element = .ok n ↔ ∃ t, element = [t] ∧ IsLiteral t n := by
  unfold elementOfTokens
  split
  · simp
  · simp [integerOfToken_eq_ok_iff]
  · simp

/-- The elements of a list are read exactly if each of them is a single literal. -/
theorem mapM_elementOfTokens_eq_ok_iff {elements : List (List String)} {ns : List Int64} :
    elements.mapM elementOfTokens = .ok ns ↔
      ∃ ts : List String, elements = ts.map (fun t => [t]) ∧ List.Forall₂ IsLiteral ts ns := by
  rw [mapM_eq_ok_iff]
  induction elements generalizing ns with
  | nil => cases ns <;> simp
  | cons element elements ih =>
    cases ns with
    | nil => simp
    | cons n ns =>
      simp only [List.map_cons,List.cons.injEq,elementOfTokens_eq_ok_iff,ih]
      constructor
      · rintro ⟨⟨t,rfl,ht⟩,ts,rfl,hts⟩
        exact ⟨t :: ts,rfl,.cons ht hts⟩
      · rintro ⟨ts,hts,h⟩
        cases h with
        | cons ht h =>
          obtain ⟨rfl,rfl⟩ := List.cons.inj hts
          exact ⟨⟨_,rfl,ht⟩,_,rfl,h⟩

/-- What stands in brackets is read element by element. -/
theorem ofTokens_brackets (inner : List String) :
    ofTokens (Token.listOpen :: inner ++ [Token.listClose]) =
      list <$> (Token.splitGroups Token.comma inner).mapM elementOfTokens := by
  cases inner with
  | nil => rfl
  | cons t ts =>
    change ofTokens (Token.listOpen :: t :: (ts ++ [Token.listClose])) = _
    have hlast : (t :: (ts ++ [Token.listClose])).getLast (by simp) = Token.listClose := by simp
    have hinner : (t :: (ts ++ [Token.listClose])).dropLast = t :: ts := by
      rw [← List.cons_append,List.dropLast_concat]
    simp only [ofTokens,hlast,hinner,ne_eq,not_true_eq_false,if_false]

/-- More than one token is read as a value only if the tokens stand in brackets. -/
theorem brackets_of_ofTokens_eq_ok {first second : String} {rest : List String} {v : Value}
    (h : ofTokens (first :: second :: rest) = .ok v) :
    ∃ inner, first :: second :: rest = Token.listOpen :: inner ++ [Token.listClose] := by
  simp only [ofTokens] at h
  split at h
  · contradiction
  · rename_i hfirst
    split at h
    · contradiction
    · rename_i hlast
      refine ⟨(second :: rest).dropLast,?_⟩
      rw [List.cons_append,Decidable.not_not.mp hfirst,← Decidable.not_not.mp hlast,List.dropLast_concat_getLast]

/-- The elements between commas come back when they are cut. -/
theorem splitGroups_elements {ts : List String} {ns : List Int64} (h : List.Forall₂ IsLiteral ts ns) :
    Token.splitGroups Token.comma (Token.joinGroups Token.comma (ts.map fun t => [t])) =
      ts.map fun t => [t] := by
  apply Token.splitGroups_joinGroups_of_ne_nil
  · simp
  · intro g hg hcomma
    obtain ⟨t,ht,rfl⟩ := List.mem_map.mp hg
    obtain rfl := List.mem_singleton.mp hcomma
    exact absurd (isWord_of_forall₂ h _ ht) (by decide)

/-- Reading a value accepts exactly its spellings. -/
theorem ofTokens_eq_ok_iff {ts : List String} {v : Value} : ofTokens ts = .ok v ↔ IsSpelling ts v := by
  constructor
  · intro h
    match ts, h with
    | [t], h =>
      obtain ⟨n,hn,rfl⟩ := map_eq_ok_iff.mp h
      exact .int (integerOfToken_eq_ok_iff.mp hn)
    | first :: second :: rest, h =>
      obtain ⟨inner,hts⟩ := brackets_of_ofTokens_eq_ok h
      rw [hts,ofTokens_brackets] at h
      obtain ⟨ns,hns,rfl⟩ := map_eq_ok_iff.mp h
      obtain ⟨us,hus,hlit⟩ := mapM_elementOfTokens_eq_ok_iff.mp hns
      rw [hts,← Token.joinGroups_splitGroups Token.comma inner,hus]
      exact .list hlit
  · intro h
    cases h with
    | int h => exact map_eq_ok_iff.mpr ⟨_,integerOfToken_eq_ok_iff.mpr h,rfl⟩
    | list h =>
      rw [ofTokens_brackets,splitGroups_elements h]
      exact map_eq_ok_iff.mpr ⟨_,mapM_elementOfTokens_eq_ok_iff.mpr ⟨_,rfl,h⟩,rfl⟩

/-- What a value is written with is one of its spellings. -/
theorem isSpelling_tokens (v : Value) : IsSpelling v.tokens v := by
  cases v with
  | int n => exact .int (isLiteral_integerToken n)
  | list items =>
    have h : List.Forall₂ IsLiteral (items.map integerToken) items := by
      rw [List.forall₂_map_left_iff,List.forall₂_same]
      exact fun n _ => isLiteral_integerToken n
    simpa [tokens,Function.comp_def] using IsSpelling.list h

/-- A spelling is made of words, brackets and commas. -/
theorem IsSpelling.mem {ts : List String} {v : Value} (h : IsSpelling ts v) {t : String} (ht : t ∈ ts) :
    Token.IsWord t ∨ t = Token.listOpen ∨ t = Token.listClose ∨ t = Token.comma := by
  cases h with
  | int h =>
    obtain rfl := List.mem_singleton.mp ht
    exact Or.inl h.isWord
  | list h =>
    rw [List.cons_append,List.mem_cons,List.mem_append,List.mem_singleton] at ht
    rcases ht with rfl | ht | rfl
    · exact Or.inr (Or.inl rfl)
    · rcases Token.mem_joinGroups ht with rfl | ⟨g,hg,htg⟩
      · exact Or.inr (Or.inr (Or.inr rfl))
      · obtain ⟨u,hu,rfl⟩ := List.mem_map.mp hg
        obtain rfl := List.mem_singleton.mp htg
        exact Or.inl (isWord_of_forall₂ h _ hu)
    · exact Or.inr (Or.inr (Or.inl rfl))

end Value
end ListScript
