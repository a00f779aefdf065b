import ListScript.Proofs.ListResults

/-!
# Sorting and selecting

Sorting keeps the integers of a list and brings them into ascending order, so that it does not matter in which order they
come. The least and the greatest integer of a list stand at the ends of the sorted list, and reversing a list swaps its ends.
-/
namespace ListScript

instance instLawfulOrderMaxInt64 : Std.LawfulOrderMax Int64 := by
  apply Std.LawfulOrderMax.of_max_le_iff
  · intro a b d
    change (if a ≤ b then b else a) ≤ d ↔ _
    simp only [Int64.le_iff_toInt_le]
    split <;> omega
  · intro a b
    change (if a ≤ b then b else a) = a ∨ (if a ≤ b then b else a) = b
    split
    · exact .inr rfl
    · exact .inl rfl

/-- The integers of a list in ascending order. -/
def ascending (xs : List Int64) : List Int64 := xs.mergeSort (· ≤ ·)

section
variable {xs ys : List Int64}

theorem ascending_perm (xs : List Int64) : (ascending xs).Perm xs := List.mergeSort_perm xs _

theorem pairwise_ascending (xs : List Int64) : (ascending xs).Pairwise (· ≤ ·) := by
  have htrans : ∀ a b d : Int64, decide (a ≤ b) = true → decide (b ≤ d) = true → decide (a ≤ d) = true := by
    simp only [decide_eq_true_eq]
    exact fun _ _ _ => Int64.le_trans
  have htotal : ∀ a b : Int64, (decide (a ≤ b) || decide (b ≤ a)) = true := by
    simp only [Bool.or_eq_true,decide_eq_true_eq]
    exact Int64.le_total
  exact (List.pairwise_mergeSort htrans htotal xs).imp of_decide_eq_true

theorem ascending_eq_of_perm (h : xs.Perm ys) : ascending xs = ascending ys :=
  List.Perm.eq_of_pairwise (fun _ _ _ _ => Int64.le_antisymm) (pairwise_ascending xs) (pairwise_ascending ys)
    ((ascending_perm xs).trans (h.trans (ascending_perm ys).symm))

theorem min?_eq_of_perm (h : xs.Perm ys) : xs.min? = ys.min? := by
  apply Option.ext
  intro n
  simp only [List.min?_eq_some_iff,h.mem_iff]

theorem max?_eq_of_perm (h : xs.Perm ys) : xs.max? = ys.max? := by
  apply Option.ext
  intro n
  simp only [List.max?_eq_some_iff,h.mem_iff]

theorem head?_ascending (xs : List Int64) : (ascending xs).head? = xs.min? := by
  rw [← min?_eq_of_perm (ascending_perm xs)]
  symm
  apply List.min?_eq_head?
  apply (pairwise_ascending xs).imp
  intro a b hab
  exact if_pos hab

theorem getLast?_ascending (xs : List Int64) : (ascending xs).getLast? = xs.max? := by
  -- Read from its end, the sorted list begins with its greatest integer.
  have hreverse : (ascending xs).reverse.Pairwise fun a b => max a b = a := by
    rw [List.pairwise_reverse]
    apply (pairwise_ascending xs).imp
    intro a b hab
    exact Int64.le_antisymm (Std.max_le_iff.mpr ⟨Int64.le_refl b,hab⟩) Std.left_le_max
  rw [← List.head?_reverse,← List.max?_eq_head? hreverse]
  exact max?_eq_of_perm ((List.reverse_perm _).trans (ascending_perm xs))

end

namespace Operation

variable {c : Config} {xs ys : List Int64}

theorem apply_sort (h : ∀ x ∈ xs, inBounds x = true) :
    apply c .sort [.value (.list xs)] = .done (.list (ascending xs)) :=
  ofOption_list fun x hx => h x ((ascending_perm xs).mem_iff.mp hx)

theorem apply_reverse (h : ∀ x ∈ xs, inBounds x = true) :
    apply c .reverse [.value (.list xs)] = .done (.list xs.reverse) :=
  ofOption_list fun x hx => h x (List.mem_reverse.mp hx)

theorem apply_minimum (h : ∀ x ∈ xs, inBounds x = true) :
    apply c .minimum [.value (.list xs)] = .ofOption (Value.int <$> xs.min?) :=
  ofOption_selected h fun _ => List.min?_mem

theorem apply_maximum (h : ∀ x ∈ xs, inBounds x = true) :
    apply c .maximum [.value (.list xs)] = .ofOption (Value.int <$> xs.max?) :=
  ofOption_selected h fun _ => List.max?_mem

theorem apply_sort_eq_undefined_iff :
    apply c .sort [.value (.list xs)] = .undefined ↔ ∃ x ∈ xs, inBounds x = false := by
  refine (ofOption_list_eq_undefined_iff (ascending xs)).trans ?_
  simp only [(ascending_perm xs).mem_iff]

theorem apply_reverse_eq_undefined_iff :
    apply c .reverse [.value (.list xs)] = .undefined ↔ ∃ x ∈ xs, inBounds x = false := by
  refine (ofOption_list_eq_undefined_iff xs.reverse).trans ?_
  simp only [List.mem_reverse]

/-- The order of a list does not matter for what is sorted or selected by size, whatever its integers are. -/
theorem apply_eq_of_perm (h : xs.Perm ys) :
    apply c .sort [.value (.list ys)] = apply c .sort [.value (.list xs)] ∧
      apply c .minimum [.value (.list ys)] = apply c .minimum [.value (.list xs)] ∧
      apply c .maximum [.value (.list ys)] = apply c .maximum [.value (.list xs)] := by
  refine ⟨?_,?_,?_⟩
  · exact congrArg (fun zs => Outcome.ofOption ((some (Value.list zs)).filter Value.isValid)) (ascending_eq_of_perm h.symm)
  · exact congrArg (fun o => Outcome.ofOption ((Value.int <$> o).filter Value.isValid)) (min?_eq_of_perm h.symm)
  · exact congrArg (fun o => Outcome.ofOption ((Value.int <$> o).filter Value.isValid)) (max?_eq_of_perm h.symm)

/-- How sorting, selecting and reversing fit together. In a list within the bound, sorting has as its result the integers of
the list in ascending order. The least and the greatest integer are the head of the sorted list and its last integer, and are
missing exactly if the list is empty. The head of the reversed list is the last integer of the list, and reversing twice gives
the list back. Whatever the integers of a list are, their order does not matter for sorting and for the least and the greatest
integer, and sorting and reversing have no result exactly if one of the integers is out of bounds. -/
theorem sorting_and_selection_agree (c : Config) (xs : List Int64) :
    ((∀ x ∈ xs, inBounds x = true) →
      (∃ ys, apply c .sort [.value (.list xs)] = .done (.list ys) ∧ ys.Pairwise (· ≤ ·) ∧ ys.Perm xs) ∧
      (apply c .minimum [.value (.list xs)] =
        apply c .sort [.value (.list xs)] >>= fun sorted => apply c .head [.value sorted]) ∧
      (apply c .maximum [.value (.list xs)] =
        apply c .sort [.value (.list xs)] >>= fun sorted => apply c .last [.value sorted]) ∧
      (xs = [] → apply c .minimum [.value (.list xs)] = .undefined ∧ apply c .maximum [.value (.list xs)] = .undefined) ∧
      (xs ≠ [] → (∃ n, apply c .minimum [.value (.list xs)] = .done (.int n)) ∧
        ∃ n, apply c .maximum [.value (.list xs)] = .done (.int n)) ∧
      ((apply c .reverse [.value (.list xs)] >>= fun reversed => apply c .head [.value reversed]) =
        apply c .last [.value (.list xs)]) ∧
      (apply c .reverse [.value (.list xs)] >>= fun reversed => apply c .reverse [.value reversed]) = .done (.list xs)) ∧
    (∀ ys, xs.Perm ys →
      apply c .sort [.value (.list ys)] = apply c .sort [.value (.list xs)] ∧
      apply c .minimum [.value (.list ys)] = apply c .minimum [.value (.list xs)] ∧
      apply c .maximum [.value (.list ys)] = apply c .maximum [.value (.list xs)]) ∧
    (apply c .sort [.value (.list xs)] = .undefined ↔ ∃ x ∈ xs, inBounds x = false) ∧
    (apply c .reverse [.value (.list xs)] = .undefined ↔ ∃ x ∈ xs, inBounds x = false) := by
  refine ⟨?_,fun ys => apply_eq_of_perm,apply_sort_eq_undefined_iff,apply_reverse_eq_undefined_iff⟩
  intro h
  have hsorted : ∀ x ∈ ascending xs, inBounds x = true := fun x hx => h x ((ascending_perm xs).mem_iff.mp hx)
  have hreversed : ∀ x ∈ xs.reverse, inBounds x = true := fun x hx => h x (List.mem_reverse.mp hx)
  refine ⟨⟨_,apply_sort h,pairwise_ascending xs,ascending_perm xs⟩,?_,?_,?_,?_,?_,?_⟩
  · rw [apply_sort h,Outcome.done_bind,apply_head hsorted,apply_minimum h,head?_ascending]
  · rw [apply_sort h,Outcome.done_bind,apply_last hsorted,apply_maximum h,getLast?_ascending]
  · rintro rfl
    exact ⟨rfl,rfl⟩
  · intro hne
    obtain ⟨m,hm⟩ := Option.isSome_iff_exists.mp (List.isSome_min?_of_ne_nil hne)
    obtain ⟨n,hn⟩ := Option.isSome_iff_exists.mp (List.isSome_max?_of_ne_nil hne)
    rw [apply_minimum h,apply_maximum h,hm,hn]
    exact ⟨⟨m,rfl⟩,⟨n,rfl⟩⟩
  · rw [apply_reverse h,Outcome.done_bind,apply_head hreversed,apply_last h,List.head?_reverse]
  · rw [apply_reverse h,Outcome.done_bind,apply_reverse hreversed,List.reverse_reverse]

/-- A list with a duplicate and both ends of the bound: it is sorted to a permutation of itself, the greatest integer is the
last one of the sorted list, and the least one is found in any order. With 257 in front there is no reversed list. -/
theorem sorting_and_selection_agree_with_duplicate :
    let xs : List Int64 := [3,-256,256,3]
    (∀ x ∈ xs, inBounds x = true) ∧
      (∃ ys, apply {} .sort [.value (.list xs)] = .done (.list ys) ∧ ys.Pairwise (· ≤ ·) ∧ ys.Perm xs) ∧
      (apply {} .maximum [.value (.list xs)] =
        apply {} .sort [.value (.list xs)] >>= fun sorted => apply {} .last [.value sorted]) ∧
      apply {} .minimum [.value (.list [256,3,3,-256])] = apply {} .minimum [.value (.list xs)] ∧
      apply {} .reverse [.value (.list (257 :: xs))] = .undefined := by
  intro xs
  have hxs : ∀ x ∈ xs, inBounds x = true := List.all_eq_true.mp (by decide)
  obtain ⟨hwithin,hperm,-,-⟩ := sorting_and_selection_agree {} xs
  obtain ⟨-,-,-,hreverse⟩ := sorting_and_selection_agree {} (257 :: xs)
  obtain ⟨hsort,-,hmaximum,-⟩ := hwithin hxs
  exact ⟨hxs,hsort,hmaximum,(hperm [256,3,3,-256] (by decide)).2.1,hreverse.mpr ⟨257,List.mem_cons_self,by decide⟩⟩

end Operation
end ListScript
