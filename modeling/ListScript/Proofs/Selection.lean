import Mathlib.Algebra.Ring.Int.Parity
import ListScript.Proofs.ExactArithmetic

/-!
# Filtering and counting

A test selects integers of a list: they keep their order, and each that passes stands there as often as before. Filtering has
what is selected as its result, and counting has its length. The length is an integer of its own, so that counting has no
result if more integers are selected than the bound allows. The tests for even and odd integers divide a list between them.
-/
namespace ListScript

/-- The integers that pass the test of a lambda. A lambda that is no test lets none pass. -/
def Lambda.Holds : Lambda → Int → Prop
  | isPositive, n => 0 < n
  | isNegative, n => n < 0
  | isEven, n => Even n
  | isOdd, n => Odd n
  | _, _ => False

/-- What a test selects from a list, in its order: the integers that pass, each as often as it stands in the list. -/
structure Lambda.Selects (l : Lambda) (xs ys : List Int64) : Prop where
  sublist : ys.Sublist xs
  holds : ∀ x ∈ ys, l.Holds x.toInt
  count_eq : ∀ x : Int64, l.Holds x.toInt → ys.count x = xs.count x

namespace Lambda

variable {l : Lambda} {p : Int → Bool} {xs ys : List Int64}

/-- The operand that a test makes answers for each integer whether it passes. -/
theorem operand?_predicate (hl : l.lambdaClass = .intToBool) :
    ∃ p : Int → Bool, (Slot.lambda .intToBool).operand? (.lambda l) = some p ∧ ∀ n, p n = true ↔ l.Holds n := by
  cases l with
  | isPositive => exact ⟨_,rfl,fun n => decide_eq_true_iff⟩
  | isNegative => exact ⟨_,rfl,fun n => decide_eq_true_iff⟩
  | isEven => exact ⟨_,rfl,fun n => decide_eq_true_iff.trans Int.even_iff.symm⟩
  | isOdd => exact ⟨_,rfl,fun n => decide_eq_true_iff.trans (Int.emod_two_ne_zero.trans Int.odd_iff.symm)⟩
  | _ => contradiction

theorem selects_filter (hp : ∀ n, p n = true ↔ l.Holds n) (xs : List Int64) :
    l.Selects xs (xs.filter fun x => p x.toInt) := by
  refine ⟨List.filter_sublist,?_,?_⟩
  · intro x hx
    exact (hp x.toInt).mp (List.mem_filter.mp hx).2
  · intro x hx
    exact List.count_filter ((hp x.toInt).mpr hx)

/-- A test selects one list only. -/
theorem Selects.eq_filter (hp : ∀ n, p n = true ↔ l.Holds n) (h : l.Selects xs ys) :
    ys = xs.filter fun x => p x.toInt := by
  have hfilter := selects_filter hp xs
  have hperm : ys.Perm (xs.filter fun x => p x.toInt) := by
    rw [List.perm_iff_count]
    intro x
    by_cases hx : l.Holds x.toInt
    · rw [h.count_eq x hx,hfilter.count_eq x hx]
    · rw [List.count_eq_zero_of_not_mem fun hmem => hx (h.holds x hmem),
        List.count_eq_zero_of_not_mem fun hmem => hx (hfilter.holds x hmem)]
  have hsublist : ys.Sublist (xs.filter fun x => p x.toInt) := by
    have hall : ∀ x ∈ ys, p x.toInt = true := fun x hx => (hp x.toInt).mpr (h.holds x hx)
    rw [← List.filter_eq_self.mpr hall]
    exact h.sublist.filter _
  exact hsublist.eq_of_length hperm.length_eq

/-- What the tests for even and odd integers select makes up the length of the list. -/
theorem length_add_length_of_selects {evens odds : List Int64} (heven : isEven.Selects xs evens)
    (hodd : isOdd.Selects xs odds) : evens.length + odds.length = xs.length := by
  obtain ⟨p,-,hp⟩ := operand?_predicate (l := isEven) rfl
  have hnot : ∀ n, (!p n) = true ↔ isOdd.Holds n := by
    intro n
    rw [Bool.not_eq_true',← Bool.not_eq_true,hp]
    exact Int.not_even_iff_odd
  have hlen := List.length_eq_countP_add_countP (fun x => p x.toInt) (l := xs)
  rw [heven.eq_filter hp,hodd.eq_filter hnot]
  simpa [List.countP_eq_length_filter] using hlen.symm

/-- No integer is both even and odd. -/
theorem not_mem_of_selects {evens odds : List Int64} (heven : isEven.Selects xs evens) (hodd : isOdd.Selects xs odds) :
    ∀ x ∈ evens, x ∉ odds := by
  intro x hx hmem
  exact Int.not_even_iff_odd.mpr (hodd.holds x hmem) (heven.holds x hx)

end Lambda

namespace Operation

variable {c : Config} {l : Lambda} {xs ys : List Int64}

/-- An exact integer is a result if it is within the bound. -/
theorem ofOption_exactInt64? (n : Int) : Outcome.ofOption ((Value.int <$> exactInt64? n).filter Value.isValid) =
    if n.natAbs ≤ bound then .done (.int (Int64.ofInt n)) else .undefined := by
  by_cases hfits : FitsInt64 n
  · rw [exactInt64?_of_fits hfits]
    refine (ofOption_int _).trans ?_
    rw [toInt_ofInt_of_fits hfits]
  · rw [exactInt64?_of_not_fits hfits,if_neg fun hle => hfits (fitsInt64_of_le_bound hle)]
    rfl

/-- Filtering a list within the bound has what the test selects as its result. -/
theorem exists_apply_filter (hl : l.lambdaClass = .intToBool) (h : ∀ x ∈ xs, inBounds x = true) :
    ∃ ys, apply c .filter [.lambda l,.value (.list xs)] = .done (.list ys) ∧ l.Selects xs ys := by
  obtain ⟨p,hoperand,hp⟩ := Lambda.operand?_predicate hl
  refine ⟨xs.filter fun x => p x.toInt,?_,Lambda.selects_filter hp xs⟩
  rw [apply_of_operandsFrom rfl (operandsFrom_cons rfl hoperand)]
  exact ofOption_list fun x hx => h x (List.mem_filter.mp hx).1

/-- Counting has the number of integers that the test selects as its result, if that is within the bound. -/
theorem apply_count (hl : l.lambdaClass = .intToBool) (hselects : l.Selects xs ys) :
    apply c .count [.lambda l,.value (.list xs)] =
      if ys.length ≤ bound then .done (.int (Int64.ofInt ys.length)) else .undefined := by
  obtain ⟨p,hoperand,hp⟩ := Lambda.operand?_predicate hl
  have hlen : ys.length = xs.countP fun x => p x.toInt := by
    rw [hselects.eq_filter hp,List.countP_eq_length_filter]
  rw [apply_of_operandsFrom rfl (operandsFrom_cons rfl hoperand),hlen]
  exact ofOption_exactInt64? _

/-- How filtering, counting and the tests fit together. On a list within the bound and with any test, filtering has as its
result the integers that pass, in their order and each as often as in the list. Counting has their number as its result as
long as there are at most 256 of them, and otherwise none. The even and the odd integers of a list divide it: their numbers
add up to its length, and none of them is among both. -/
theorem filtering_and_counting_agree (c : Config) (h : ∀ x ∈ xs, inBounds x = true) :
    (∀ l : Lambda, l.lambdaClass = .intToBool → ∃ ys,
      apply c .filter [.lambda l,.value (.list xs)] = .done (.list ys) ∧ l.Selects xs ys ∧
      (ys.length ≤ 256 → ∃ n : Int64, n.toInt = ys.length ∧
        apply c .count [.lambda l,.value (.list xs)] = .done (.int n)) ∧
      (256 < ys.length → apply c .count [.lambda l,.value (.list xs)] = .undefined)) ∧
    ∃ evens odds, apply c .filter [.lambda .isEven,.value (.list xs)] = .done (.list evens) ∧
      apply c .filter [.lambda .isOdd,.value (.list xs)] = .done (.list odds) ∧
      evens.length + odds.length = xs.length ∧ ∀ x ∈ evens, x ∉ odds := by
  constructor
  · intro l hl
    obtain ⟨ys,hfilter,hselects⟩ := exists_apply_filter (c := c) hl h
    refine ⟨ys,hfilter,hselects,?_,?_⟩
    · intro hle
      have hfits : FitsInt64 (ys.length : Int) := fitsInt64_of_le_bound hle
      exact ⟨Int64.ofInt ys.length,toInt_ofInt_of_fits hfits,(apply_count hl hselects).trans (if_pos hle)⟩
    · intro hlt
      exact (apply_count hl hselects).trans (if_neg (Nat.not_le_of_lt hlt))
  · obtain ⟨evens,heven,hevens⟩ := exists_apply_filter (c := c) (l := .isEven) rfl h
    obtain ⟨odds,hodd,hodds⟩ := exists_apply_filter (c := c) (l := .isOdd) rfl h
    exact ⟨evens,odds,heven,hodd,Lambda.length_add_length_of_selects hevens hodds,Lambda.not_mem_of_selects hevens hodds⟩

/-- In a short list the odd integers, of either sign, are counted. One negative integer that stands 257 times in a list is found
each time, which is once too often to be counted. -/
theorem filtering_and_counting_agree_past_bound :
    let few : List Int64 := [-3,-4,7]
    let many : List Int64 := 2 :: List.replicate 257 (-1)
    (∀ x ∈ few, inBounds x = true) ∧ (∀ x ∈ many, inBounds x = true) ∧ Lambda.isOdd.lambdaClass = .intToBool ∧
      Lambda.isNegative.lambdaClass = .intToBool ∧
      (∃ ys, apply {} .filter [.lambda .isOdd,.value (.list few)] = .done (.list ys) ∧ ys.length ≤ 256 ∧
        ∃ n : Int64, n.toInt = ys.length ∧ apply {} .count [.lambda .isOdd,.value (.list few)] = .done (.int n)) ∧
      (∃ ys, apply {} .filter [.lambda .isNegative,.value (.list many)] = .done (.list ys) ∧ 256 < ys.length) ∧
      apply {} .count [.lambda .isNegative,.value (.list many)] = .undefined := by
  intro few many
  have hfew : ∀ x ∈ few, inBounds x = true := List.all_eq_true.mp (by decide)
  have hmany : ∀ x ∈ many, inBounds x = true := by
    intro x hx
    rcases List.mem_cons.mp hx with rfl | hx
    · decide
    · rw [List.eq_of_mem_replicate hx]
      decide
  obtain ⟨odds,hodds,hselects,hcounted,-⟩ := (filtering_and_counting_agree {} hfew).1 .isOdd rfl
  obtain ⟨negatives,hnegatives,hnegative,-,hlost⟩ := (filtering_and_counting_agree {} hmany).1 .isNegative rfl
  have hle : odds.length ≤ 256 := hselects.sublist.length_le.trans (by decide)
  have hlt : 256 < negatives.length := by
    have hholds : Lambda.isNegative.Holds (-1) := Int.negSucc_lt_zero 0
    have hcount : negatives.count (-1) = many.count (-1) := hnegative.count_eq (-1) hholds
    have hmost : negatives.count (-1) ≤ negatives.length := List.count_le_length
    have hwhole : many.count (-1) = 257 := (List.count_cons_of_ne (by decide)).trans List.count_replicate_self
    omega
  exact ⟨hfew,hmany,rfl,rfl,⟨odds,hodds,hle,hcounted hle⟩,⟨negatives,hnegatives,hlt⟩,hlost hlt⟩

end Operation
end ListScript
