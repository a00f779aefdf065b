import ListScript.Proofs.ExactArithmetic
import ListScript.Proofs.Grammar

/-!
# Texts of values

The grammar of values, said by itself. A numeral is an optional minus sign and at least one digit; a value is written as a
numeral, or as numerals in brackets with a comma between each two. Reading accepts exactly these tokens, as long as the
numerals denote 64-bit integers. Each value is therefore read back from its tokens and from its text.
-/
namespace ListScript
open Reading

theorem Token.joinGroups_singletons {α : Type} (separator : α) (as : List α) :
    joinGroups separator (as.map fun a => [a]) = as.intersperse separator := by
  induction as with
  | nil => rfl
  | cons a as ih =>
    cases as with
    | nil => rfl
    | cons b as =>
      rw [List.map_cons] at ih
      rw [List.map_cons,List.map_cons,joinGroups_cons_cons,ih,List.intersperse_cons_cons]
      rfl

namespace Value

/-- A text is made of an optional minus sign and of digits, and denotes an integer by them. -/
def IsNumeral (t : String) (i : Int) : Prop :=
  ∃ ds : List Char, ds ≠ [] ∧ (∀ c ∈ ds, c.isDigit = true) ∧
    (t = String.ofList ds ∧ i = Nat.ofDigitChars 10 ds 0 ∨
      t = String.ofList ('-' :: ds) ∧ i = -(Nat.ofDigitChars 10 ds 0 : Int))

theorem isLiteral_iff {t : String} {n : Int64} : IsLiteral t n ↔ IsNumeral t n.toInt := by
  constructor
  · intro h
    cases h with
    | unsigned hne hds hn => exact ⟨_,hne,hds,.inl ⟨rfl,hn⟩⟩
    | negative hne hds hn => exact ⟨_,hne,hds,.inr ⟨rfl,hn⟩⟩
  · intro ⟨ds,hne,hds,h⟩
    rcases h with ⟨rfl,hn⟩ | ⟨rfl,hn⟩
    · exact .unsigned hne hds hn
    · exact .negative hne hds hn

/-- A word stands for what a numeral denotes exactly if that is in the range of words. -/
theorem exists_isLiteral_iff {t : String} : (∃ n, IsLiteral t n) ↔ ∃ i, IsNumeral t i ∧ FitsInt64 i := by
  constructor
  · intro ⟨n,hn⟩
    exact ⟨n.toInt,isLiteral_iff.mp hn,fitsInt64_toInt n⟩
  · intro ⟨i,hi,hfits⟩
    refine ⟨Int64.ofInt i,isLiteral_iff.mpr ?_⟩
    rwa [toInt_ofInt_of_fits hfits]

theorem isSpelling_iff {ts : List String} {v : Value} : IsSpelling ts v ↔
    (∃ t n, ts = [t] ∧ v = .int n ∧ IsLiteral t n) ∨
    ∃ us ns, ts = Token.listOpen :: us.intersperse Token.comma ++ [Token.listClose] ∧ v = .list ns ∧
      List.Forall₂ IsLiteral us ns := by
  constructor
  · intro h
    cases h with
    | int h => exact .inl ⟨_,_,rfl,rfl,h⟩
    | list h => exact .inr ⟨_,_,by rw [Token.joinGroups_singletons],rfl,h⟩
  · intro h
    rcases h with ⟨t,n,rfl,rfl,h⟩ | ⟨us,ns,rfl,rfl,h⟩
    · exact .int h
    · rw [← Token.joinGroups_singletons]
      exact .list h

/-- What a value is written with are tokens, so its text is split into them again. -/
theorem ofText_text (v : Value) : ofText v.text = ofTokens v.tokens := by
  rw [ofText,text,Token.split_unwords]
  intro t ht
  rcases v.isSpelling_tokens.mem ht with hword | rfl | rfl | rfl
  · exact hword.isToken
  · exact Token.isToken_listOpen
  · exact Token.isToken_listClose
  · exact Token.isToken_comma

/-- Which tokens a value is read from. They are one numeral, which denotes the integer, or an opening bracket, any number of
numerals with single commas in between, which denote the integers of the list in order, and a closing bracket. One token is
read as a value exactly if it is a numeral that denotes a 64-bit integer. Hence every value is read back from the tokens and
from the text that it is written with. -/
theorem reading_accepts_grammar :
    (∀ (ts : List String) (v : Value), ofTokens ts = .ok v ↔
      (∃ t n, ts = [t] ∧ v = .int n ∧ IsNumeral t n.toInt) ∨
      ∃ us ns, ts = Token.listOpen :: us.intersperse Token.comma ++ [Token.listClose] ∧ v = .list ns ∧
        List.Forall₂ (fun u n => IsNumeral u (Int64.toInt n)) us ns) ∧
    (∀ t : String, (∃ v, ofTokens [t] = .ok v) ↔ ∃ i, IsNumeral t i ∧ FitsInt64 i) ∧
    ∀ v : Value, ofTokens v.tokens = .ok v ∧ ofText v.text = .ok v := by
  refine ⟨?_,?_,?_⟩
  · intro ts v
    have hliteral : IsLiteral = fun t n => IsNumeral t (Int64.toInt n) := by
      funext t n
      exact propext isLiteral_iff
    rw [ofTokens_eq_ok_iff,isSpelling_iff,hliteral]
  · intro t
    rw [← exists_isLiteral_iff]
    constructor
    · intro ⟨v,hv⟩
      obtain ⟨n,hn,-⟩ := map_eq_ok_iff.mp hv
      exact ⟨n,integerOfToken_eq_ok_iff.mp hn⟩
    · intro ⟨n,hn⟩
      exact ⟨.int n,ofTokens_eq_ok_iff.mpr (.int hn)⟩
  · intro v
    have h : ofTokens v.tokens = .ok v := ofTokens_eq_ok_iff.mpr v.isSpelling_tokens
    exact ⟨h,(ofText_text v).trans h⟩

/-- Leading zeros and a minus sign before a zero are read, but an element between two commas is never missing. -/
example : ofTokens ["[","-0",",","007","]"] = .ok (.list [0,7]) ∧
    ofTokens ["[","7",",","]"] = .error (.unexpectedEnd .listElement) := by decide

end Value
end ListScript
