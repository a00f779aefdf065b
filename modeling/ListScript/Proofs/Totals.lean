import Mathlib.Algebra.BigOperators.Group.List.Basic
import ListScript.Proofs.ExactArithmetic

/-!
# Running totals

A sum is added up from the left in words. It is exact as long as each total on the way fits a word. A total that does not
ends the sum without a result, even where the integers after it would bring it back. Integers within the bound never get
there, unless there are enormously many of them.
-/
namespace ListScript

instance : DecidablePred FitsInt64 := fun n => inferInstanceAs (Decidable (-2^63 ≤ n ∧ n < 2^63))

/-- The exact sum of a list. -/
def total (xs : List Int64) : Int := (xs.map Int64.toInt).sum

@[simp] theorem total_nil : total [] = 0 := rfl

@[simp] theorem total_cons (x : Int64) (xs : List Int64) : total (x :: xs) = x.toInt + total xs := by simp [total]

theorem total_perm {xs ys : List Int64} (h : xs.Perm ys) : total xs = total ys := (h.map Int64.toInt).sum_eq

/-- Each total from the left, up to that of the whole list, fits a word. -/
def TotalsFit (xs : List Int64) : Prop := ∀ k ≤ xs.length, FitsInt64 (total (xs.take k))

instance : DecidablePred TotalsFit := fun xs =>
  inferInstanceAs (Decidable (∀ k ≤ xs.length, FitsInt64 (total (xs.take k))))

theorem TotalsFit.total {xs : List Int64} (h : TotalsFit xs) : FitsInt64 (total xs) := by
  simpa using h xs.length (Nat.le_refl _)

theorem natAbs_total_le {xs : List Int64} (h : ∀ x ∈ xs, inBounds x = true) : (total xs).natAbs ≤ bound * xs.length := by
  induction xs with
  | nil => rfl
  | cons x xs ih =>
    have hx : x.toInt.natAbs ≤ bound := of_decide_eq_true (h x List.mem_cons_self)
    have hxs := ih fun y hy => h y (List.mem_cons_of_mem x hy)
    rw [total_cons,List.length_cons,Nat.mul_succ]
    omega

/-- Not too many integers within the bound do not leave the 64-bit range on the way. -/
theorem totalsFit_of_inBounds {xs : List Int64} (h : ∀ x ∈ xs, inBounds x = true) (hlen : xs.length < 2^55) :
    TotalsFit xs := by
  intro k hk
  have htotal : (total (xs.take k)).natAbs ≤ bound * (xs.take k).length :=
    natAbs_total_le fun x hx => h x (List.mem_of_mem_take hx)
  rw [List.length_take_of_le hk,bound] at htotal
  unfold FitsInt64
  omega

/-- What is said of every beginning of a list is said of the empty one and of those with the first item. -/
theorem forall_take_cons {P : List Int64 → Prop} {x : Int64} {xs : List Int64} :
    (∀ k ≤ (x :: xs).length, P ((x :: xs).take k)) ↔ P [] ∧ ∀ k ≤ xs.length, P (x :: xs.take k) := by
  constructor
  · intro h
    exact ⟨h 0 (Nat.zero_le _),fun k hk => h (k+1) (Nat.succ_le_succ hk)⟩
  · rintro ⟨hnil,hcons⟩ k hk
    cases k with
    | zero => exact hnil
    | succ k => exact hcons k (Nat.le_of_succ_le_succ hk)

namespace Operation

/-- Adding a list to a word has a result exactly if each total on the way fits a word, and the result is then exact. -/
theorem foldlM_exactAdd_eq_some_iff {xs : List Int64} {acc sum : Int64} : xs.foldlM exactAdd acc = some sum ↔
    (∀ k ≤ xs.length, FitsInt64 (acc.toInt + total (xs.take k))) ∧ sum.toInt = acc.toInt + total xs := by
  induction xs generalizing acc with
  | nil =>
    have hacc := fitsInt64_toInt acc
    simp [hacc,eq_comm,Int64.toInt_inj]
  | cons x xs ih =>
    have hacc : FitsInt64 (acc.toInt + total []) := by simpa using fitsInt64_toInt acc
    rw [List.foldlM_cons,exactAdd,forall_take_cons (P := fun ys => FitsInt64 (acc.toInt + total ys))]
    simp only [total_cons,← Int.add_assoc,hacc,true_and]
    by_cases hnext : FitsInt64 (acc.toInt + x.toInt)
    · -- The next total is that of a word, from which the rest of the list goes on.
      rw [exactInt64?_of_fits hnext,Option.bind_eq_bind,Option.bind_some,ih,toInt_ofInt_of_fits hnext]
    · rw [exactInt64?_of_not_fits hnext]
      constructor
      · intro h
        contradiction
      · rintro ⟨h,-⟩
        have := h 0 (Nat.zero_le _)
        rw [List.take_zero,total_nil,Int.add_zero] at this
        contradiction

theorem foldlM_exactAdd_zero (xs : List Int64) :
    xs.foldlM exactAdd 0 = if TotalsFit xs then some (Int64.ofInt (total xs)) else none := by
  have hzero : ∀ n : Int, (0 : Int64).toInt + n = n := Int.zero_add
  by_cases hfit : TotalsFit xs
  · rw [if_pos hfit,foldlM_exactAdd_eq_some_iff,toInt_ofInt_of_fits hfit.total]
    simp only [hzero]
    exact ⟨hfit,trivial⟩
  · rw [if_neg hfit,Option.eq_none_iff_forall_ne_some]
    intro sum hsum
    have htotals := (foldlM_exactAdd_eq_some_iff.mp hsum).1
    simp only [hzero] at htotals
    exact hfit htotals

theorem apply_sum_of_totalsFit (c : Config) {xs : List Int64} (h : TotalsFit xs) : apply c .sum [.value (.list xs)] =
    if (total xs).natAbs ≤ bound then .done (.int (Int64.ofInt (total xs))) else .undefined := by
  change Outcome.ofOption ((Value.int <$> xs.foldlM exactAdd 0).filter Value.isValid) = _
  rw [foldlM_exactAdd_zero,if_pos h]
  refine (ofOption_int _).trans ?_
  rw [toInt_ofInt_of_fits h.total]

theorem apply_sum_of_not_totalsFit (c : Config) {xs : List Int64} (h : ¬ TotalsFit xs) :
    apply c .sum [.value (.list xs)] = .undefined := by
  change Outcome.ofOption ((Value.int <$> xs.foldlM exactAdd 0).filter Value.isValid) = _
  rw [foldlM_exactAdd_zero,if_neg h]
  rfl

/-- What a sum comes to: the exact sum if it is within the bound and each total on the way to it fits a word, and otherwise
there is no result. The order of the integers does not matter as long as the totals fit words in both orders. -/
theorem sum_while_totals_fit (c : Config) (xs : List Int64) :
    apply c .sum [.value (.list xs)] =
      (if TotalsFit xs ∧ (total xs).natAbs ≤ bound then .done (.int (Int64.ofInt (total xs))) else .undefined) ∧
    ∀ ys, xs.Perm ys → TotalsFit xs → TotalsFit ys →
      apply c .sum [.value (.list ys)] = apply c .sum [.value (.list xs)] := by
  constructor
  · by_cases hfit : TotalsFit xs
    · simp only [apply_sum_of_totalsFit c hfit,hfit,true_and]
    · simp only [apply_sum_of_not_totalsFit c hfit,hfit,false_and,if_false]
  · intro ys hperm hxs hys
    rw [apply_sum_of_totalsFit c hxs,apply_sum_of_totalsFit c hys,total_perm hperm]

/-- The greatest word, one, and the opposite of the greatest word add up to one. The sum is lost on the way in this order,
where the second total does not fit a word, and found when the one comes last. -/
theorem sum_lost_on_the_way :
    total [Int64.maxValue,1,-Int64.maxValue] = 1 ∧
      apply {} .sum [.value (.list [Int64.maxValue,1,-Int64.maxValue])] = .undefined ∧
      [Int64.maxValue,1,-Int64.maxValue].Perm [Int64.maxValue,-Int64.maxValue,1] ∧
      apply {} .sum [.value (.list [Int64.maxValue,-Int64.maxValue,1])] = .done (.int 1) :=
  ⟨by decide,by decide,.cons _ (.swap _ _ _),by decide⟩

end Operation
end ListScript
