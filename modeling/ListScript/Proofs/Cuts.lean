import ListScript.Proofs.ListResults

/-!
# Cutting lists

Taking from a list and dropping from it cut it at one place, which is counted from the start, or from the end if the number is
negative, and which never leaves the list. What is taken and what is left make up the list again. Accessing an integer finds
the first one behind the cut, except that it does not count from the end.
-/
namespace ListScript

/-- Where a list of a given length is cut, in exact integers. -/
def cutPoint (n : Int) (length : Nat) : Int := if 0 ≤ n then min n length else max (length + n) 0

namespace Operation

variable {c : Config} {xs : List Int64} {n : Int64}

theorem lt_zero_iff (n : Int64) : n < 0 ↔ n.toInt < 0 := Int64.lt_iff_toInt_lt

theorem cutIndex_eq (n : Int64) (length : Nat) : (cutIndex n length : Int) = cutPoint n.toInt length := by
  have hneg := lt_zero_iff n
  by_cases hn : n.toInt < 0
  · rw [cutIndex,cutPoint,if_pos (hneg.mpr hn),if_neg (by omega)]
    omega
  · have hmin : Nat.min n.toInt.toNat length = min n.toInt.toNat length := rfl
    rw [cutIndex,cutPoint,if_neg (by rwa [hneg]),if_pos (by omega),hmin]
    omega

/-- A list has the same integer at a place as where it is cut for that place. -/
theorem getElem?_cutIndex (h : 0 ≤ n.toInt) : xs[cutIndex n xs.length]? = xs[n.toInt.toNat]? := by
  have hcut := cutIndex_eq n xs.length
  unfold cutPoint at hcut
  rw [if_pos h] at hcut
  by_cases hlt : n.toInt < xs.length
  · have hindex : cutIndex n xs.length = n.toInt.toNat := by omega
    rw [hindex]
  · -- Behind the end there is no integer, neither at the place nor where the list is cut.
    rw [List.getElem?_eq_none (by omega),List.getElem?_eq_none (by omega)]

theorem apply_take (h : ∀ x ∈ xs, inBounds x = true) : apply c .take [.value (.int n),.value (.list xs)] =
    .done (.list (xs.take (cutIndex n xs.length))) :=
  ofOption_list fun x hx => h x (List.mem_of_mem_take hx)

theorem apply_drop (h : ∀ x ∈ xs, inBounds x = true) : apply c .drop [.value (.int n),.value (.list xs)] =
    .done (.list (xs.drop (cutIndex n xs.length))) :=
  ofOption_list fun x hx => h x (List.mem_of_mem_drop hx)

theorem apply_access (h : ∀ x ∈ xs, inBounds x = true) (hn : 0 ≤ n.toInt) :
    apply c .access [.value (.int n),.value (.list xs)] = .ofOption (Value.int <$> xs[n.toInt.toNat]?) := by
  have hresult : result c .access (n,xs,()) = Value.int <$> xs[n.toInt.toNat]? :=
    if_neg fun hneg => absurd ((lt_zero_iff n).mp hneg) (by omega)
  change Outcome.ofOption ((result c .access (n,xs,())).filter Value.isValid) = _
  rw [hresult]
  exact ofOption_selected h fun _ => List.mem_of_getElem?

/-- No integer is accessed from the end. -/
theorem apply_access_of_neg (hn : n.toInt < 0) : apply c .access [.value (.int n),.value (.list xs)] = .undefined := by
  have hresult : result c .access (n,xs,()) = none := if_pos ((lt_zero_iff n).mpr hn)
  change Outcome.ofOption ((result c .access (n,xs,())).filter Value.isValid) = _
  rw [hresult]
  rfl

/-- Taking, dropping and accessing follow one way of counting. In a list within the bound, taking has as its result the
integers up to the place of the cut, and dropping those behind it, so that together they are the list. Accessing comes to the
head of what dropping leaves, if the number is not negative, and otherwise has no result. -/
theorem cuts_agree (c : Config) (n : Int64) (h : ∀ x ∈ xs, inBounds x = true) : ∃ k : Nat, k = cutPoint n.toInt xs.length ∧
    apply c .take [.value (.int n),.value (.list xs)] = .done (.list (xs.take k)) ∧
    apply c .drop [.value (.int n),.value (.list xs)] = .done (.list (xs.drop k)) ∧
    xs.take k ++ xs.drop k = xs ∧
    (0 ≤ n.toInt → apply c .access [.value (.int n),.value (.list xs)] =
      apply c .drop [.value (.int n),.value (.list xs)] >>= fun rest => apply c .head [.value rest]) ∧
    (n.toInt < 0 → apply c .access [.value (.int n),.value (.list xs)] = .undefined) := by
  refine ⟨cutIndex n xs.length,cutIndex_eq n xs.length,apply_take h,apply_drop h,List.take_append_drop _ _,?_,
    apply_access_of_neg⟩
  intro hn
  have hrest : ∀ x ∈ xs.drop (cutIndex n xs.length), inBounds x = true := fun x hx => h x (List.mem_of_mem_drop hx)
  rw [apply_access h hn,apply_drop h,Outcome.done_bind,apply_head hrest,List.head?_drop,getElem?_cutIndex hn]

/-- Counted from the end, the second integer of three is behind the cut at -2, and cannot be accessed by it. The least word cuts
in front of all integers, and the greatest one behind them, where there is none to access. -/
theorem cuts_agree_at_ends :
    let xs : List Int64 := [7,-256,9]
    (∀ x ∈ xs, inBounds x = true) ∧
      apply {} .take [.value (.int (-2)),.value (.list xs)] = .done (.list [7]) ∧
      apply {} .drop [.value (.int (-2)),.value (.list xs)] = .done (.list [-256,9]) ∧
      apply {} .access [.value (.int (-2)),.value (.list xs)] = .undefined ∧
      apply {} .drop [.value (.int Int64.minValue),.value (.list xs)] = .done (.list xs) ∧
      apply {} .access [.value (.int Int64.maxValue),.value (.list xs)] =
        apply {} .drop [.value (.int Int64.maxValue),.value (.list xs)] >>= fun rest => apply {} .head [.value rest] := by
  intro xs
  have hxs : ∀ x ∈ xs, inBounds x = true := List.all_eq_true.mp (by decide)
  obtain ⟨k,hk,htake,hdrop,-,-,haccess⟩ := cuts_agree {} (-2) hxs
  obtain ⟨m,hm,-,hleast,-⟩ := cuts_agree {} Int64.minValue hxs
  obtain ⟨-,-,-,-,-,hgreatest,-⟩ := cuts_agree {} Int64.maxValue hxs
  obtain rfl : k = 1 := Int.ofNat_inj.mp (hk.trans (by decide))
  obtain rfl : m = 0 := Int.ofNat_inj.mp (hm.trans (by decide))
  exact ⟨hxs,htake,hdrop,haccess (by decide),hleast,hgreatest (by decide)⟩

end Operation
end ListScript
