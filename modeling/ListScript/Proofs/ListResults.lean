import ListScript.Proofs.Application

/-!
# Results out of a list

An operation without a lambda selects or rearranges the integers of its list. Whatever it takes out of a list that is within
the bound is within the bound, so that the comparison with the bound never takes a result away.
-/
namespace ListScript

theorem Outcome.ofOption_eq_undefined_iff {α : Type} {o : Option α} : ofOption o = .undefined ↔ o = none := by
  cases o <;> simp [ofOption]

theorem Value.isValid_list_iff {xs : List Int64} : (list xs).isValid = true ↔ ∀ x ∈ xs, inBounds x = true :=
  List.all_eq_true

namespace Operation

variable {c : Config} {xs : List Int64}

/-- A word is a result if it is within the bound. -/
theorem ofOption_int (w : Int64) : Outcome.ofOption ((some (Value.int w)).filter Value.isValid) =
    if w.toInt.natAbs ≤ bound then .done (.int w) else .undefined := by
  have hvalid : (Value.int w).isValid = decide (w.toInt.natAbs ≤ bound) := Bool.and_true _
  rw [Option.filter_some,hvalid]
  by_cases h : w.toInt.natAbs ≤ bound <;> simp [h,Outcome.ofOption]

/-- A list is a result if its integers are within the bound. -/
theorem ofOption_list (h : ∀ x ∈ xs, inBounds x = true) :
    Outcome.ofOption ((some (Value.list xs)).filter Value.isValid) = .done (.list xs) := by
  rw [Option.filter_some_pos (Value.isValid_list_iff.mpr h)]
  rfl

theorem ofOption_list_eq_undefined_iff (xs : List Int64) :
    Outcome.ofOption ((some (Value.list xs)).filter Value.isValid) = .undefined ↔ ∃ x ∈ xs, inBounds x = false := by
  rw [Outcome.ofOption_eq_undefined_iff,Option.filter_eq_none_iff]
  simp [← Bool.not_eq_true,Value.isValid_list_iff]

/-- An integer that is selected from a list within the bound is a result. -/
theorem ofOption_selected {o : Option Int64} (h : ∀ x ∈ xs, inBounds x = true) (ho : ∀ n, o = some n → n ∈ xs) :
    Outcome.ofOption ((Value.int <$> o).filter Value.isValid) = Outcome.ofOption (Value.int <$> o) := by
  cases o with
  | none => rfl
  | some n =>
    have hn : n.toInt.natAbs ≤ bound := of_decide_eq_true (h n (ho n rfl))
    exact (ofOption_int n).trans (if_pos hn)

theorem apply_head (h : ∀ x ∈ xs, inBounds x = true) :
    apply c .head [.value (.list xs)] = .ofOption (Value.int <$> xs.head?) :=
  ofOption_selected h fun _ => List.mem_of_head?

theorem apply_last (h : ∀ x ∈ xs, inBounds x = true) :
    apply c .last [.value (.list xs)] = .ofOption (Value.int <$> xs.getLast?) :=
  ofOption_selected h fun _ => List.mem_of_getLast?

end Operation
end ListScript
